import PacketExpr.Proofs.Attribute.Session

/-!
# What each call of a session does

`Session.Reachable.call_exact` says for every session and every call what becomes of the bytes.  A
call that adds something fits or does not fit, by the length field and by the budget; if it fits,
its header and its payload are put behind the bytes, with zero bytes up to the next whole word.
Closing a nested attribute depends on its length alone and only replaces the length in its header.
A call that fails leaves the writer as it was.

That the header of a nested attribute is still what opening it has written is a property of whole
sessions: other nested attributes may have been closed since then, in any order.  `Session.Headed`
carries it.  Two nested attributes that are open have different starts, and since these are whole
words, replacing the length in one header touches no byte of the other.
-/

namespace PacketExpr

namespace Call

/-- What a call does to the writer. -/
def action : Call → Write Unit
  | put type payload => Write.put type payload
  | putWord type word => Write.putWord type word
  | putText type text => Write.putText type text
  | openNest type => do let _ ← Write.openNest type
  | closeNest nest => Write.closeNest nest

/-- The header and the payload that a call adds.  Closing a nested attribute adds nothing. -/
def addition? : Call → Option (Bytes × Bytes)
  | put type payload => some (header type payload, payload)
  | putWord type word => some (header type (Bytes.ofWord word), Bytes.ofWord word)
  | putText type text =>
      let payload := text.toUTF8.toList ++ [0]
      some (header type payload, payload)
  | openNest type => some (Attribute.encodeHeader 0 (type ||| Attribute.nestedFlag), [])
  | closeNest _ => none
where
  header (type : UInt16) (payload : Bytes) : Bytes :=
    Attribute.encodeHeader (Attribute.headerSize + payload.length) type

end Call

namespace Writer

/-- Putting a length into a header touches no byte but the two of the length. -/
theorem getElem?_setLength {writer : Writer} {start index : Nat} (length : Nat)
    (inside : start + Attribute.headerSize ≤ writer.bytes.length)
    (outside : index < start ∨ start + 2 ≤ index) :
    (writer.setLength start length).bytes[index]? = writer.bytes[index]? := by
  simp only [Attribute.headerSize] at inside
  simp only [Writer.setLength, List.getElem?_append, List.length_append, List.length_take,
    Bytes.length_ofUInt16]
  rw [Nat.min_eq_left (by omega)]
  rcases outside with before | behind
  · rw [if_pos (by omega), if_pos before, List.getElem?_take, if_pos before]
  · rw [if_neg (by omega), List.getElem?_drop]
    congr 1
    omega

end Writer

namespace Write

variable {action : Write Unit} {writer left : Writer}

theorem leaves_of_ok (done : action.run writer = .ok () left) : action.leaves writer = left := by
  simp only [leaves, done]

theorem leaves_of_error {error : AttributeError} (failed : action.run writer = .error error left) :
    action.leaves writer = left := by
  simp only [leaves, failed]

end Write

/-- The header of a nested attribute in the bytes is the one that opening it writes, with its length
still missing. -/
def Nest.HeadedIn (bytes : Bytes) (nest : Nest) : Prop :=
  ∃ type, (bytes.drop nest.start).take Attribute.headerSize =
    Attribute.encodeHeader 0 (type ||| Attribute.nestedFlag)

namespace Session

def Succeeds (session : Session) (call : Call) : Prop :=
  ∃ left, call.action.run session.writer = .ok () left

/-- A call adds a header and a payload if the length field and the budget admit them: they go behind
the bytes, with zero bytes that make them whole words. -/
structure Adds (limit : Nat) (session : Session) (call : Call) (header payload : Bytes) :
    Prop where
  length_header : header.length = Attribute.headerSize
  succeeds_iff : session.Succeeds call ↔
    Attribute.headerSize + payload.length ≤ Attribute.maxSize ∧
      session.writer.bytes.length + paddedSize (Attribute.headerSize + payload.length) ≤ limit
  bytes_eq : session.Succeeds call →
    (session.step call).writer.bytes =
      session.writer.bytes ++ (header ++ payload ++ List.replicate
        (paddedSize (Attribute.headerSize + payload.length)
          - (Attribute.headerSize + payload.length)) 0)
  length_eq : session.Succeeds call →
    (session.step call).writer.bytes.length =
      session.writer.bytes.length + paddedSize (Attribute.headerSize + payload.length)

/-- Closing a nested attribute whose header stands between `front` and `back` puts the number of
bytes from its start into the header, if the length field admits it. -/
structure Closes (session : Session) (nest : Nest) (front : Bytes) (type : UInt16) (back : Bytes) :
    Prop where
  bytes_eq : session.writer.bytes = front ++ Attribute.encodeHeader 0 type ++ back
  length_front : front.length = nest.start
  succeeds_iff : session.Succeeds (.closeNest nest) ↔
    session.writer.bytes.length - nest.start ≤ Attribute.maxSize
  closed_eq : session.Succeeds (.closeNest nest) →
    (session.step (.closeNest nest)).writer.bytes =
      front ++ Attribute.encodeHeader (session.writer.bytes.length - nest.start) type ++ back

variable {limit : Nat} {session : Session}

/-- A call leaves behind the writer that its action leaves behind, also where it opens a nested
attribute. -/
theorem step_writer (session : Session) (call : Call) :
    (session.step call).writer = call.action.leaves session.writer := by
  cases call with
  | openNest type =>
      by_cases room : session.writer.hasRoom 0 = true
      · simp [step, Call.action, Write.leaves, Write.openNest, bind, EStateM.bind, EStateM.run,
          pure, EStateM.pure, room]
      · simp [step, Call.action, Write.leaves, Write.openNest, bind, EStateM.bind, EStateM.run,
          room]
  | put | putWord | putText | closeNest => rfl

/-- A call that adds something checks for room first and then adds all of it at once.  What a put
pads are all the bytes; these are whole words before, so the padding belongs to what was added. -/
theorem run_of_addition (wholeWords : session.writer.bytes.length % 4 = 0) {call : Call}
    {header payload : Bytes} (adds : call.addition? = some (header, payload)) :
    call.action.run session.writer =
      if session.writer.hasRoom payload.length then
        .ok () (session.writer.append (header ++ payload ++ List.replicate
          (paddedSize (Attribute.headerSize + payload.length)
            - (Attribute.headerSize + payload.length)) 0))
      else
        .error .noSpace session.writer := by
  cases call with
  | openNest type =>
      cases adds
      by_cases room : session.writer.hasRoom 0 = true
      · simp [Call.action, Write.openNest, bind, EStateM.bind, EStateM.run, pure, EStateM.pure,
          Attribute.headerSize, paddedSize, room]
      · simp [Call.action, Write.openNest, bind, EStateM.bind, EStateM.run, room]
  | put type payload =>
      cases adds
      exact Write.put_eq wholeWords type payload
  | putWord type word =>
      cases adds
      exact Write.put_eq wholeWords type (Bytes.ofWord word)
  | putText type text =>
      cases adds
      exact Write.put_eq wholeWords type (text.toUTF8.toList ++ [0])
  | closeNest nest => contradiction

theorem run_closeNest (session : Session) (nest : Nest) :
    (Call.closeNest nest).action.run session.writer =
      if session.writer.bytes.length - nest.start ≤ Attribute.maxSize then
        .ok () (session.writer.setLength nest.start (session.writer.bytes.length - nest.start))
      else
        .error .noSpace session.writer := rfl

theorem succeeds_iff_of_run {call : Call} {fits : Prop} [Decidable fits] {left : Writer}
    (run_eq : call.action.run session.writer =
      if fits then .ok () left else .error .noSpace session.writer) :
    session.Succeeds call ↔ fits := by
  unfold Succeeds
  rw [run_eq]
  by_cases holds : fits
  · simp [holds]
  · simp [holds]

/-- A call that fails reports that there is no space, and changes nothing. -/
theorem run_eq_error (wholeWords : session.writer.bytes.length % 4 = 0) {call : Call}
    (fails : ¬session.Succeeds call) :
    call.action.run session.writer = .error .noSpace session.writer := by
  cases added : call.addition? with
  | some addition =>
      have run_eq := run_of_addition wholeWords added
      rw [succeeds_iff_of_run run_eq] at fails
      rw [run_eq, if_neg fails]
  | none =>
      cases call with
      | closeNest nest =>
          have run_eq := run_closeNest session nest
          rw [succeeds_iff_of_run run_eq] at fails
          rw [run_eq, if_neg fails]
      | put | putWord | putText | openNest => contradiction

/-- What a call that adds something does can be told from what it is to add, the call itself playing
no further part. -/
theorem adds_of_addition (valid : session.Valid limit) {call : Call} {header payload : Bytes}
    (adds : call.addition? = some (header, payload)) :
    session.Adds limit call header payload := by
  have length_header : header.length = Attribute.headerSize := by
    cases call <;> cases adds <;> rfl
  have run_eq := run_of_addition valid.wholeWords adds
  have succeeds_iff := succeeds_iff_of_run run_eq
  have step_eq (succeeds : session.Succeeds call) :
      (session.step call).writer.bytes =
        session.writer.bytes ++ (header ++ payload ++ List.replicate
          (paddedSize (Attribute.headerSize + payload.length)
            - (Attribute.headerSize + payload.length)) 0) := by
    rw [if_pos (succeeds_iff.mp succeeds)] at run_eq
    rw [step_writer, Write.leaves_of_ok run_eq]
    rfl
  refine ⟨length_header, ?_, step_eq, ?_⟩
  · rw [succeeds_iff, Writer.hasRoom_iff, valid.limit_eq]
  · intro succeeds
    have room := le_paddedSize (Attribute.headerSize + payload.length)
    rw [step_eq succeeds]
    simp only [List.length_append, List.length_replicate, length_header]
    omega

end Session

namespace Nest

variable {bytes : Bytes} {nest : Nest}

theorem HeadedIn.inside (headed : nest.HeadedIn bytes) :
    nest.start + Attribute.headerSize ≤ bytes.length := by
  rcases headed with ⟨type, header_eq⟩
  have length := congrArg List.length header_eq
  simp only [List.length_take, List.length_drop, Attribute.length_encodeHeader,
    Attribute.headerSize] at length ⊢
  omega

/-- Whether a nested attribute is headed depends on the four bytes from its start alone. -/
theorem HeadedIn.congr {after : Bytes} (headed : nest.HeadedIn bytes)
    (same : ∀ index, nest.start ≤ index → index < nest.start + Attribute.headerSize →
      after[index]? = bytes[index]?) : nest.HeadedIn after := by
  rcases headed with ⟨type, header_eq⟩
  refine ⟨type, ?_⟩
  rw [← header_eq]
  apply List.ext_getElem?
  intro index
  simp only [List.getElem?_take, List.getElem?_drop]
  by_cases inHeader : index < Attribute.headerSize
  · rw [if_pos inHeader, if_pos inHeader]
    exact same (nest.start + index) (by omega) (by omega)
  · rw [if_neg inHeader, if_neg inHeader]

/-- Bytes that are added later lie behind the header. -/
theorem HeadedIn.append (headed : nest.HeadedIn bytes) (behind : Bytes) :
    nest.HeadedIn (bytes ++ behind) := by
  have inside := headed.inside
  apply headed.congr
  intro index _ inHeader
  exact List.getElem?_append_left (by omega)

theorem headedIn_append_encodeHeader (bytes : Bytes) (type : UInt16) :
    HeadedIn (bytes ++ Attribute.encodeHeader 0 (type ||| Attribute.nestedFlag))
      ⟨bytes.length⟩ := by
  refine ⟨type, ?_⟩
  rw [List.drop_left]
  rfl

/-- Closing a nested attribute leaves the header of another one as it is. -/
theorem HeadedIn.setLength {writer : Writer} {closed : Nest}
    (headed : nest.HeadedIn writer.bytes)
    (inside : closed.start + Attribute.headerSize ≤ writer.bytes.length)
    (other : nest ≠ closed) (aligned : nest.start % 4 = 0) (closed_aligned : closed.start % 4 = 0)
    (length : Nat) : nest.HeadedIn (writer.setLength closed.start length).bytes := by
  have start_ne : nest.start ≠ closed.start := by
    cases nest
    cases closed
    simpa using other
  apply headed.congr
  intro index fromStart inHeader
  simp only [Attribute.headerSize] at inHeader
  exact Writer.getElem?_setLength length inside (by omega)

/-- The bytes around the header of a nested attribute. -/
theorem HeadedIn.split (headed : nest.HeadedIn bytes) :
    ∃ front type back, bytes =
        front ++ Attribute.encodeHeader 0 (type ||| Attribute.nestedFlag) ++ back ∧
      front.length = nest.start := by
  have inside := headed.inside
  rcases headed with ⟨type, header_eq⟩
  refine ⟨bytes.take nest.start, type, (bytes.drop nest.start).drop Attribute.headerSize, ?_, ?_⟩
  · rw [← header_eq, List.append_assoc, List.take_append_drop, List.take_append_drop]
  · rw [List.length_take]
    omega

end Nest

namespace Session

/-- The nested attributes that are open are different ones, they start at whole words, and their
headers are as they were opened. -/
structure Headed (session : Session) : Prop where
  distinct : session.nests.Nodup
  aligned : ∀ nest ∈ session.nests, nest.start % 4 = 0
  headers : ∀ nest ∈ session.nests, nest.HeadedIn session.writer.bytes

variable {limit : Nat} {session : Session}

/-- What is opened stays headed if a call opens nothing and keeps the headers. -/
theorem Headed.of_kept {after : Session} (headed : session.Headed)
    (fewer : after.nests.Sublist session.nests)
    (kept : ∀ nest ∈ after.nests, nest.HeadedIn session.writer.bytes →
      nest.HeadedIn after.writer.bytes) : after.Headed where
  distinct := headed.distinct.sublist fewer
  aligned nest nest_mem := headed.aligned nest (fewer.subset nest_mem)
  headers nest nest_mem := kept nest nest_mem (headed.headers nest (fewer.subset nest_mem))

/-- A call that is to add something at most adds bytes behind the others. -/
theorem exists_append_of_addition (valid : session.Valid limit) {call : Call}
    {addition : Bytes × Bytes} (adds : call.addition? = some addition) :
    ∃ behind, (session.step call).writer.bytes = session.writer.bytes ++ behind := by
  by_cases succeeds : session.Succeeds call
  · exact ⟨_, (adds_of_addition valid adds).bytes_eq succeeds⟩
  · refine ⟨[], ?_⟩
    rw [step_writer, Write.leaves_of_error (run_eq_error valid.wholeWords succeeds),
      List.append_nil]

theorem Headed.step_of_addition {call : Call} {addition : Bytes × Bytes} (headed : session.Headed)
    (valid : session.Valid limit) (adds : call.addition? = some addition)
    (nests_eq : (session.step call).nests = session.nests) : (session.step call).Headed := by
  rcases exists_append_of_addition valid adds with ⟨behind, bytes_eq⟩
  apply headed.of_kept
  · simp [nests_eq]
  · intro nest _ headedBefore
    rw [bytes_eq]
    exact headedBefore.append behind

/-- A nested attribute that is opened starts where the bytes ended, so it is none of those that are
open, and the header that is written for it is its own. -/
theorem Headed.openNest (headed : session.Headed) (valid : session.Valid limit) (type : UInt16) :
    (session.step (.openNest type)).Headed := by
  by_cases room : session.writer.hasRoom 0 = true
  · have fresh : (⟨session.writer.bytes.length⟩ : Nest) ∉ session.nests := by
      intro isOpen
      have inside := valid.inside _ isOpen
      simp only [Attribute.headerSize] at inside
      omega
    rw [step_openNest_of_hasRoom type room]
    refine ⟨List.nodup_cons.mpr ⟨fresh, headed.distinct⟩, ?_, ?_⟩
    · intro nest nest_mem
      rcases List.mem_cons.mp nest_mem with rfl | older
      · exact valid.wholeWords
      · exact headed.aligned nest older
    · intro nest nest_mem
      rcases List.mem_cons.mp nest_mem with rfl | older
      · exact Nest.headedIn_append_encodeHeader _ type
      · exact (headed.headers nest older).append _
  · rw [step_openNest_of_full type room]
    exact headed

/-- Closing one nested attribute writes into its header only, and those of the others are
elsewhere. -/
theorem Headed.closeNest (headed : session.Headed) (valid : session.Valid limit) {nest : Nest}
    (isOpen : nest ∈ session.nests) : (session.step (.closeNest nest)).Headed := by
  apply headed.of_kept List.erase_sublist
  intro other stillOpen headedBefore
  by_cases succeeds : session.Succeeds (.closeNest nest)
  · have run_eq := run_closeNest session nest
    rw [if_pos ((succeeds_iff_of_run run_eq).mp succeeds)] at run_eq
    rw [step_writer, Write.leaves_of_ok run_eq]
    have different : other ≠ nest := (headed.distinct.mem_erase_iff.mp stillOpen).1
    have wasOpen : other ∈ session.nests := List.mem_of_mem_erase stillOpen
    exact headedBefore.setLength (headed.headers nest isOpen).inside different
      (headed.aligned other wasOpen) (headed.aligned nest isOpen) _
  · rw [step_writer, Write.leaves_of_error (run_eq_error valid.wholeWords succeeds)]
    exact headedBefore

theorem Headed.step {call : Call} (headed : session.Headed) (valid : session.Valid limit)
    (allowed : session.Allows call) : (session.step call).Headed := by
  cases call with
  | put type payload => exact headed.step_of_addition valid rfl rfl
  | putWord type word => exact headed.step_of_addition valid rfl rfl
  | putText type text => exact headed.step_of_addition valid rfl rfl
  | openNest type => exact headed.openNest valid type
  | closeNest nest => exact headed.closeNest valid allowed

theorem Reachable.headed (reachable : Reachable limit session) : session.Headed := by
  induction reachable with
  | blank => exact ⟨List.nodup_nil, by simp, by simp⟩
  | step earlier allowed ih => exact ih.step earlier.valid allowed

/-- Closing a nested attribute that is headed replaces the length in its header. -/
theorem exists_closes {nest : Nest} (headed : nest.HeadedIn session.writer.bytes) :
    ∃ front type back,
      session.Closes nest front (type ||| Attribute.nestedFlag) back := by
  rcases headed.split with ⟨front, type, back, bytes_eq, length_front⟩
  have run_eq := run_closeNest session nest
  have succeeds_iff := succeeds_iff_of_run run_eq
  refine ⟨front, type, back, bytes_eq, length_front, succeeds_iff, ?_⟩
  intro succeeds
  rw [if_pos (succeeds_iff.mp succeeds)] at run_eq
  have writer_eq : session.writer =
      (((⟨front, session.writer.limit⟩ : Writer).append
        (Attribute.encodeHeader 0 (type ||| Attribute.nestedFlag))).append back) := by
    simp only [Writer.append]
    rw [← bytes_eq]
  rw [step_writer, Write.leaves_of_ok run_eq]
  generalize session.writer.bytes.length - nest.start = length
  rw [writer_eq, ← length_front, Write.setLength_append, List.append_assoc]
  rfl

/-- After every call the bytes are whole words and within the budget.  A call that adds something
and one that closes a nested attribute succeed if they fit, and do what they are for; the nested
attribute that is opened starts where the bytes ended.  A call that fails changes nothing. -/
theorem Reachable.call_exact {call : Call} (reachable : Reachable limit session)
    (allowed : session.Allows call) :
    (session.step call).writer.bytes.length % 4 = 0 ∧
      (session.step call).writer.bytes.length ≤ limit ∧
      (∀ header payload, call.addition? = some (header, payload) →
        session.Adds limit call header payload) ∧
      (∀ type, call = .openNest type → session.Succeeds call →
        (session.step call).nests = ⟨session.writer.bytes.length⟩ :: session.nests) ∧
      (∀ nest, call = .closeNest nest →
        ∃ front type back, session.Closes nest front (type ||| Attribute.nestedFlag) back) ∧
      (¬session.Succeeds call →
        call.action.run session.writer = .error .noSpace session.writer ∧
          (session.step call).writer = session.writer) := by
  have valid := reachable.valid
  have validAfter := valid.step allowed
  refine ⟨validAfter.wholeWords, validAfter.length_le, ?_, ?_, ?_, ?_⟩
  · intro header payload adds
    exact adds_of_addition valid adds
  · rintro type rfl succeeds
    have adds : (Call.openNest type).addition? =
        some (Attribute.encodeHeader 0 (type ||| Attribute.nestedFlag), []) := rfl
    have room := (succeeds_iff_of_run (run_of_addition valid.wholeWords adds)).mp succeeds
    rw [step_openNest_of_hasRoom type room]
  · rintro nest rfl
    exact exists_closes (reachable.headed.headers nest allowed)
  · intro fails
    have run_eq := run_eq_error valid.wholeWords fails
    exact ⟨run_eq, by rw [step_writer, Write.leaves_of_error run_eq]⟩

/-- A budget of 21 bytes, of which an open attribute and a word take 12: six more bytes of payload
would need 12 bytes again, although 10 are left without the padding that they need.  Closing the
attribute is possible nevertheless. -/
theorem call_exact_after_failure :
    let written := ((⟨Writer.blank 21, []⟩ : Session).step (.openNest 1)).step (.putWord 2 7)
    let refused := written.step (.put 3 [1, 2, 3, 4, 5, 6])
    ¬written.Succeeds (.put 3 [1, 2, 3, 4, 5, 6]) ∧
      refused.writer = written.writer ∧
      refused.Succeeds (.closeNest ⟨0⟩) ∧
      (∃ front type back, refused.Closes ⟨0⟩ front (type ||| Attribute.nestedFlag) back) ∧
      (refused.step (.closeNest ⟨0⟩)).writer.bytes = [0, 12, 0x80, 1, 0, 8, 0, 2, 0, 0, 0, 7] := by
  intro written refused
  have reachable : Reachable 21 written := .step (.step .blank trivial) trivial
  have length : written.writer.bytes.length = 12 := by
    decide +kernel
  have allowed : written.Allows (.put 3 [1, 2, 3, 4, 5, 6]) := trivial
  rcases reachable.call_exact allowed with ⟨_, _, adds, _, _, unchanged⟩
  have fails : ¬written.Succeeds (.put 3 [1, 2, 3, 4, 5, 6]) := by
    rw [(adds _ _ rfl).succeeds_iff, length]
    decide
  have isOpen : refused.Allows (.closeNest ⟨0⟩) := by
    show (⟨0⟩ : Nest) ∈ refused.nests
    decide +kernel
  have refusedReachable : Reachable 21 refused := reachable.step trivial
  rcases (refusedReachable.call_exact isOpen).2.2.2.2.1 ⟨0⟩ rfl with ⟨front, type, back, closes⟩
  refine ⟨fails, (unchanged fails).2, ?_, ⟨front, type, back, closes⟩, ?_⟩
  · rw [closes.succeeds_iff, (unchanged fails).2, length]
    decide
  · decide +kernel

end Session

end PacketExpr
