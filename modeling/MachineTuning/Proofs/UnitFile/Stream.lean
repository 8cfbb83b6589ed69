import MachineTuning.UnitFile.Sink

namespace MachineTuning

/-!
# Streams — what a stream holds when it gives up

A unit file goes to a stream in many small pieces, and a stream may give up within a piece, between
two pieces or in front of an empty one.

* `Sink.writeAll_attempt` — wherever the pieces are cut, a sink holds the bytes that it has room
  for, and it refuses exactly if these are not all;
* `UnitFile.render_eq_ok` — a buffer takes a whole unit file, and what it holds is text;
* `UnitFile.writeTo_eq_take` — so a sink that gives up holds the front of the rendered text.
-/

/-- The error that a refused write ends with. -/
def Refusal.error : Refusal → SystemError
  | .closed => .closedPipe
  | .stalled => .noProgress

/-! ### Sinks -/

namespace Sink

/-- The sink after bytes were written to it, as far as there was room. -/
def after (sink : Sink) (bytes : List UInt8) : Sink :=
  ⟨sink.room - bytes.length, sink.refusal, sink.written ++ bytes.take sink.room⟩

/-- The error of writing bytes, if there is no room for all of them. -/
def shortage? (sink : Sink) (bytes : List UInt8) : Option SystemError :=
  if bytes.length ≤ sink.room then none else some sink.refusal.error

/-- A sink that takes nothing stays as it is. -/
theorem after_nil (sink : Sink) : sink.after [] = sink := by
  simp [after]

/-- A sink takes two runs of bytes one after the other. -/
theorem after_append (sink : Sink) (bytes more : List UInt8) :
    sink.after (bytes ++ more) = (sink.after bytes).after more := by
  simp [after, List.take_append, Nat.sub_add_eq]

/-- A full sink stays as it is. -/
theorem after_of_full {sink : Sink} (hfull : sink.room = 0) (bytes : List UInt8) :
    sink.after bytes = sink := by
  obtain ⟨room, refusal, written⟩ := sink
  obtain rfl : room = 0 := hfull
  simp [after]

/-- Behind bytes that fit, others are short of room exactly if all of them together are. -/
theorem shortage?_after {sink : Sink} {bytes : List UInt8} (h : bytes.length ≤ sink.room)
    (more : List UInt8) : (sink.after bytes).shortage? more = sink.shortage? (bytes ++ more) := by
  have hroom : more.length ≤ sink.room - bytes.length ↔ (bytes ++ more).length ≤ sink.room := by
    rw [List.length_append]
    omega
  show (if more.length ≤ sink.room - bytes.length then none else some sink.refusal.error) = _
  simp only [hroom, shortage?]

/-- A full sink refuses all bytes but none. -/
theorem write_attempt_of_full {sink : Sink} (hfull : sink.room = 0) {bytes : List UInt8}
    (hbytes : bytes ≠ []) : attempt.write sink bytes = (sink, some sink.refusal.error) := by
  obtain ⟨byte, bytes, rfl⟩ := List.exists_cons_of_ne_nil hbytes
  rw [Attempt.write, attempt, if_pos hfull]
  cases sink.refusal with
  | closed => rfl
  | stalled => rfl

/-- An attempt to write to a sink with room takes at least one byte, and the others are written to
    what is left of the sink. -/
theorem write_attempt_of_room {sink : Sink} (hroom : sink.room ≠ 0) {bytes : List UInt8}
    (hbytes : bytes ≠ []) : attempt.write sink bytes =
      attempt.write (sink.after bytes) (bytes.drop sink.room) := by
  obtain ⟨byte, bytes, rfl⟩ := List.exists_cons_of_ne_nil hbytes
  obtain ⟨room, hsucc⟩ := Nat.exists_eq_succ_of_ne_zero hroom
  have hdrop : bytes.drop (min room bytes.length) = bytes.drop room :=
    List.drop_eq_drop_min.symm
  have hleft : room - min room bytes.length = room - bytes.length := by omega
  rw [Attempt.write, attempt, if_neg hroom]
  simp [hsucc, after, hdrop, hleft]

/-- **Bytes in one piece.**  A sink takes what it has room for, and refuses the rest. -/
theorem write_attempt (sink : Sink) (bytes : List UInt8) :
    attempt.write sink bytes = (sink.after bytes, sink.shortage? bytes) := by
  by_cases hbytes : bytes = []
  · subst hbytes
    simp [Attempt.write, after_nil, shortage?]
  have hlength : 0 < bytes.length := List.length_pos_iff.2 hbytes
  by_cases hfull : sink.room = 0
  · rw [write_attempt_of_full hfull hbytes, after_of_full hfull, shortage?, if_neg (by omega)]
  rw [write_attempt_of_room hfull hbytes, shortage?]
  -- What is left over finds the sink full, so there is no third attempt.
  by_cases hfits : bytes.length ≤ sink.room
  · rw [List.drop_of_length_le hfits, if_pos hfits, Attempt.write]
  · have hrest : bytes.drop sink.room ≠ [] := by simpa using hfits
    have hfull' : (sink.after bytes).room = 0 := Nat.sub_eq_zero_of_le (by omega)
    rw [write_attempt_of_full hfull' hrest, if_neg hfits]
    rfl

/-- **Bytes in pieces.**  Wherever a text is cut, a sink takes the bytes that it has room for. -/
theorem writeAll_attempt (sink : Sink) (pieces : List String) :
    attempt.writeAll sink pieces = (sink.after (Text.utf8 (String.join pieces)),
      sink.shortage? (Text.utf8 (String.join pieces))) := by
  induction pieces generalizing sink with
  | nil =>
    have hnil : Text.utf8 (String.join []) = [] := rfl
    rw [Attempt.writeAll, hnil, after_nil]
    simp [shortage?]
  | cons piece pieces ih =>
    rw [Attempt.writeAll, write_attempt, String.join_cons, Text.utf8_append]
    generalize Text.utf8 piece = bytes
    by_cases hfits : bytes.length ≤ sink.room
    · have hnone : sink.shortage? bytes = none := if_pos hfits
      rw [hnone]
      show attempt.writeAll (sink.after bytes) pieces = _
      rw [ih, after_append, shortage?_after hfits]
    · have hsome : sink.shortage? bytes = some sink.refusal.error := if_neg hfits
      have hfull : (sink.after bytes).room = 0 := Nat.sub_eq_zero_of_le (by omega)
      -- The sink is full by now, so the pieces behind would not have changed it.
      rw [hsome, after_append, after_of_full hfull, shortage?, if_neg]
      rw [List.length_append]
      omega

end Sink

/-! ### Buffers -/

namespace Attempt

/-- A buffer takes all bytes at once. -/
theorem write_append (buffer bytes : List UInt8) :
    append.write buffer bytes = (buffer ++ bytes, none) := by
  cases bytes with
  | nil => rw [write, List.append_nil]
  | cons byte bytes =>
    rw [write, append]
    simp [write]

/-- A buffer takes all pieces, one behind the other. -/
theorem writeAll_append (buffer : List UInt8) (pieces : List String) :
    append.writeAll buffer pieces = (buffer ++ Text.utf8 (String.join pieces), none) := by
  induction pieces generalizing buffer with
  | nil => exact congrArg (·, none) (List.append_nil buffer).symm
  | cons piece pieces ih =>
    rw [writeAll, write_append, String.join_cons, Text.utf8_append, ← List.append_assoc]
    exact ih (buffer ++ Text.utf8 piece)

end Attempt

namespace UnitFile

/-- **A unit file is rendered.**  The buffer takes all of it, and what it holds is the text. -/
theorem render_eq_ok (ds : List Directive) : render ds = .ok (text ds) := by
  have hbuffer : Attempt.append.writeAll [] (fragments ds) = (Text.utf8 (text ds), none) := by
    rw [Attempt.writeAll_append, List.nil_append, text]
  simp only [render, hbuffer, Text.ofUtf8?_utf8]

/-- **A sink that gives up holds the front of the text.**  Of the rendered text it holds as many
    bytes as it takes in total.  Nothing is refused if these are all of them, and otherwise the
    write ends with the error that the sink reports, or with that of a write without progress. -/
theorem writeTo_eq_take (ds : List Directive) (room : Nat) (refusal : Refusal) :
    ∃ text, render ds = .ok text ∧
      (writeTo ⟨room, refusal, []⟩ ds).1.written =
        (Text.utf8 text).take (min room (Text.utf8 text).length) ∧
      ((writeTo ⟨room, refusal, []⟩ ds).2 = none ↔ (Text.utf8 text).length ≤ room) ∧
      (writeTo ⟨room, refusal, []⟩ ds).2 =
        if (Text.utf8 text).length ≤ room then none
        else match refusal with
          | .closed => some ⟨.brokenPipe, "closed"⟩
          | .stalled => some ⟨.writeZero, "failed to write whole buffer"⟩ := by
  refine ⟨text ds, render_eq_ok ds, ?_⟩
  have hwrite : writeTo ⟨room, refusal, []⟩ ds = (Sink.after ⟨room, refusal, []⟩
      (Text.utf8 (text ds)), Sink.shortage? ⟨room, refusal, []⟩ (Text.utf8 (text ds))) :=
    Sink.writeAll_attempt _ _
  rw [hwrite]
  -- From here on only the bytes and the room count.
  generalize Text.utf8 (text ds) = bytes
  refine ⟨?_, ?_, ?_⟩
  · show [] ++ bytes.take room = _
    rw [List.nil_append, ← List.take_eq_take_min]
  · simp [Sink.shortage?]
  · cases refusal with
    | closed => rfl
    | stalled => rfl

end UnitFile

end MachineTuning
