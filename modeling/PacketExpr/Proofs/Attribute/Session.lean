import PacketExpr.Proofs.Attribute.Emission

/-!
# Sessions of a writer

A writer is used through calls: whole attributes are put into it, and nested attributes are opened
and closed.  A call may fail, and then the writer is used further nevertheless.  A nested attribute
is closed at most once, after it was opened in the same session, but in any order and perhaps never.

`Session.Reachable` gathers the sessions that calls lead to, and `Session.Valid` is what all of them
have in common.
-/

namespace PacketExpr

/-- A call on a writer. -/
inductive Call where
  | put (type : UInt16) (payload : Bytes)
  | putWord (type : UInt16) (word : UInt32)
  | putText (type : UInt16) (text : String)
  | openNest (type : UInt16)
  | closeNest (nest : Nest)

/-- The writer that an action leaves behind, whether or not it fails. -/
def Write.leaves {α : Type} (action : Write α) (writer : Writer) : Writer :=
  match action.run writer with
  | .ok _ left => left
  | .error _ left => left

/-- A writer together with the nested attributes that are open. -/
structure Session where
  writer : Writer
  nests : List Nest

namespace Session

/-- The session after a call.  Closing a nested attribute uses it up, even if it fails. -/
def step (session : Session) : Call → Session
  | .put type payload => ⟨(Write.put type payload).leaves session.writer, session.nests⟩
  | .putWord type word => ⟨(Write.putWord type word).leaves session.writer, session.nests⟩
  | .putText type text => ⟨(Write.putText type text).leaves session.writer, session.nests⟩
  | .openNest type =>
      match (Write.openNest type).run session.writer with
      | .ok nest left => ⟨left, nest :: session.nests⟩
      | .error _ left => ⟨left, session.nests⟩
  | .closeNest nest => ⟨(Write.closeNest nest).leaves session.writer, session.nests.erase nest⟩

/-- Only what is open can be closed. -/
def Allows (session : Session) : Call → Prop
  | .closeNest nest => nest ∈ session.nests
  | _ => True

/-- The sessions that calls lead to, starting with a writer that has written nothing. -/
inductive Reachable (limit : Nat) : Session → Prop where
  | blank : Reachable limit ⟨Writer.blank limit, []⟩
  | step {session : Session} {call : Call} (reachable : Reachable limit session)
      (allowed : session.Allows call) : Reachable limit (session.step call)

/-- A session keeps to its budget, its bytes are whole words, and the headers of the nested
attributes that are open lie inside them. -/
structure Valid (limit : Nat) (session : Session) : Prop where
  limit_eq : session.writer.limit = limit
  length_le : session.writer.bytes.length ≤ limit
  wholeWords : session.writer.bytes.length % 4 = 0
  inside : ∀ nest ∈ session.nests,
    nest.start + Attribute.headerSize ≤ session.writer.bytes.length

/-- Where whole words were written before, putting an attribute adds its encoding or nothing. -/
theorem leaves_put_cases {writer : Writer} (wholeWords : writer.bytes.length % 4 = 0)
    (type : UInt16) (payload : Bytes) :
    (Write.put type payload).leaves writer = writer ∨
      writer.hasRoom payload.length = true ∧
        (Write.put type payload).leaves writer =
          writer.append (Attribute.encode ⟨type, payload⟩) := by
  by_cases room : writer.hasRoom payload.length = true
  · right
    refine ⟨room, ?_⟩
    simp [Write.leaves, EStateM.run, Write.put_eq wholeWords, room]
  · left
    simp [Write.leaves, EStateM.run, Write.put_eq wholeWords, room]

theorem length_setLength {writer : Writer} {start : Nat} (length : Nat)
    (inside : start + Attribute.headerSize ≤ writer.bytes.length) :
    (writer.setLength start length).bytes.length = writer.bytes.length := by
  simp only [Attribute.headerSize] at inside
  simp only [Writer.setLength, List.length_append, List.length_take, List.length_drop,
    Bytes.length_ofUInt16]
  omega

variable {limit : Nat} {session : Session}

/-- The writer of a valid session holds whole words within its own budget. -/
theorem Valid.sound (valid : session.Valid limit) : session.writer.Sound where
  wholeWords := valid.wholeWords
  length_le := by
    rw [valid.limit_eq]
    exact valid.length_le

theorem Valid.append {bytes : Bytes} (valid : session.Valid limit)
    (wholeWords : bytes.length % 4 = 0)
    (room : session.writer.bytes.length + bytes.length ≤ session.writer.limit) :
    Valid limit ⟨session.writer.append bytes, session.nests⟩ := by
  have sound := valid.sound.append wholeWords room
  refine ⟨valid.limit_eq, ?_, sound.wholeWords, ?_⟩
  · rw [← valid.limit_eq]
    exact sound.length_le
  · intro nest nest_mem
    rw [Writer.length_append]
    exact Nat.le_trans (valid.inside nest nest_mem) (Nat.le_add_right _ _)

theorem Valid.put (valid : session.Valid limit) (type : UInt16) (payload : Bytes) :
    Valid limit ⟨(Write.put type payload).leaves session.writer, session.nests⟩ := by
  rcases leaves_put_cases valid.wholeWords type payload with same | ⟨room, appended⟩
  · rw [same]
    exact valid
  · rw [appended]
    rw [Writer.hasRoom_iff] at room
    apply valid.append (Attribute.encode_wholeWords _)
    rw [Attribute.length_encode]
    exact room.2

theorem step_openNest_of_hasRoom (type : UInt16) (room : session.writer.hasRoom 0 = true) :
    session.step (.openNest type) =
      ⟨session.writer.append (Attribute.encodeHeader 0 (type ||| Attribute.nestedFlag)),
        ⟨session.writer.bytes.length⟩ :: session.nests⟩ := by
  simp [step, Write.openNest, EStateM.run, room]

theorem step_openNest_of_full (type : UInt16) (full : ¬session.writer.hasRoom 0 = true) :
    session.step (.openNest type) = session := by
  simp [step, Write.openNest, EStateM.run, full]

theorem Valid.openNest (valid : session.Valid limit) (type : UInt16) :
    (session.step (.openNest type)).Valid limit := by
  by_cases room : session.writer.hasRoom 0 = true
  · rw [step_openNest_of_hasRoom type room]
    have wholeWord := Attribute.encodeHeader_wholeWords 0 (type ||| Attribute.nestedFlag)
    have opened := valid.append wholeWord (Write.hasRoom_zero_iff.mp room)
    refine ⟨opened.limit_eq, opened.length_le, opened.wholeWords, ?_⟩
    intro nest nest_mem
    rcases List.mem_cons.mp nest_mem with rfl | older
    · simp only [Writer.length_append, Attribute.length_encodeHeader, Nat.le_refl]
    · exact opened.inside nest older
  · rw [step_openNest_of_full type room]
    exact valid

/-- Closing a nested attribute changes no length but the one in its header. -/
theorem Valid.closeNest (valid : session.Valid limit) {nest : Nest}
    (isOpen : nest ∈ session.nests) : (session.step (.closeNest nest)).Valid limit := by
  have fewer : ∀ other ∈ session.nests.erase nest, other ∈ session.nests :=
    fun _ => List.mem_of_mem_erase
  by_cases short : session.writer.bytes.length - nest.start ≤ Attribute.maxSize
  · have closed : session.step (.closeNest nest) =
        ⟨session.writer.setLength nest.start (session.writer.bytes.length - nest.start),
          session.nests.erase nest⟩ := by
      simp [step, Write.leaves, Write.closeNest, EStateM.run, short]
    have length := length_setLength (session.writer.bytes.length - nest.start)
      (valid.inside nest isOpen)
    rw [closed]
    refine ⟨valid.limit_eq, ?_, ?_, ?_⟩
    · rw [length]
      exact valid.length_le
    · rw [length]
      exact valid.wholeWords
    · intro other other_mem
      rw [length]
      exact valid.inside other (fewer other other_mem)
  · have refused : session.step (.closeNest nest) =
        ⟨session.writer, session.nests.erase nest⟩ := by
      simp [step, Write.leaves, Write.closeNest, EStateM.run, short]
    rw [refused]
    exact ⟨valid.limit_eq, valid.length_le, valid.wholeWords,
      fun other other_mem => valid.inside other (fewer other other_mem)⟩

theorem Valid.step {call : Call} (valid : session.Valid limit) (allowed : session.Allows call) :
    (session.step call).Valid limit := by
  cases call with
  | put type payload => exact valid.put type payload
  | putWord type word => exact valid.put type (Bytes.ofWord word)
  | putText type text => exact valid.put type (text.toUTF8.toList ++ [0])
  | openNest type => exact valid.openNest type
  | closeNest nest => exact valid.closeNest allowed

theorem Reachable.valid (reachable : Reachable limit session) : session.Valid limit := by
  induction reachable with
  | blank => exact ⟨rfl, Nat.zero_le _, rfl, by simp⟩
  | step _ allowed ih => exact ih.step allowed

end Session

end PacketExpr
