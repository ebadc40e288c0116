import Mathlib.Data.List.Induction
import CoopKernel.Proofs.Trace.Numbering
import CoopKernel.Proofs.Trace.Reading

/-!
# The written trace

A tracer that writes to a sink puts down a line for each call that is let through. If the sink takes
everything, the text can be taken apart into these lines, and each of them can be read
(`Legible`). If the sink has limited room, the same text is cut off where the room ends, and nowhere
else (`CutOff`): a line that does not fit is written as far as it does, and from then on nothing
fits.

Both come of what is in a sink when a text was written to it (`Sink.filled`): storing a record only
adds its line to that text (`Sink.store_filled`).
-/

namespace CoopKernel.Trace

/-- A record's line with its end. -/
def Record.ended (record : Record) : List Char := record.lineChars ++ ['\n']

/-- The lines of the calls that are let through. -/
def TracerConfig.printed (config : TracerConfig) (calls : List Call) : List Char :=
  (config.notes calls).flatMap Record.ended

section Printed

variable {config : TracerConfig} {calls : List Call} {call : Call}

theorem TracerConfig.printed_concat_of_accepts (h : config.accepts call) :
    config.printed (calls ++ [call]) = config.printed calls ++ (config.next calls call).ended := by
  rw [printed, notes_concat_of_accepts h, List.flatMap_append, List.flatMap_singleton, printed]

theorem TracerConfig.printed_concat_of_rejects (h : config.accepts call = false) :
    config.printed (calls ++ [call]) = config.printed calls := by
  rw [printed, notes_concat_of_rejects h, printed]

/-- More calls print no less. -/
theorem TracerConfig.length_printed_le (config : TracerConfig) (calls later : List Call) :
    (config.printed calls).length ≤ (config.printed (calls ++ later)).length := by
  induction later using List.reverseRecOn with
  | nil => rw [List.append_nil]
  | append_singleton later call ih =>
    rw [← List.append_assoc]
    cases haccepts : config.accepts call with
    | true =>
      rw [printed_concat_of_accepts haccepts, List.length_append]
      exact Nat.le_add_right_of_le ih
    | false => rwa [printed_concat_of_rejects haccepts]

end Printed

/-! ## Lines -/

theorem Record.not_mem_lineChars (record : Record) : '\n' ∉ record.lineChars := by
  intro hmem
  have hplain := List.all_eq_true.mp record.all_isPlain_lineChars _ hmem
  cases hplain

/-- The end of a line is where it ends. -/
theorem splitOn_flatMap_ended (records : List Record) :
    (records.flatMap Record.ended).splitOn '\n' = records.map Record.lineChars ++ [[]] := by
  induction records with
  | nil => exact List.splitOn_nil '\n'
  | cons record rest ih =>
    rw [List.flatMap_cons, Record.ended, List.append_assoc, List.singleton_append,
      List.splitOn_append_cons_self_of_not_mem record.not_mem_lineChars, ih, List.map_cons,
      List.cons_append]

theorem mapM_line?_lineChars (records : List Record) :
    (records.map Record.lineChars).mapM Reading.line? = some (records.map Record.reading) := by
  induction records with
  | nil => rfl
  | cons record rest ih =>
    rw [List.map_cons, List.mapM_cons, Reading.line?_lineChars, ih]
    rfl

/-- A text made of lines is read back. -/
theorem text?_flatMap_ended (records : List Record) :
    Reading.text? (records.flatMap Record.ended) = some (records.map Record.reading) := by
  rw [Reading.text?, splitOn_flatMap_ended, List.dropLast_concat, mapM_line?_lineChars]

/-- The characters of printed lines can be counted for bytes. -/
theorem TracerConfig.utf8Size_of_mem_printed {config : TracerConfig} {calls : List Call} {c : Char}
    (h : c ∈ config.printed calls) : c.utf8Size = 1 := by
  obtain ⟨record, -, hmem⟩ := List.mem_flatMap.mp h
  rcases List.mem_append.mp hmem with hline | hend
  · have hplain := List.all_eq_true.mp record.all_isPlain_lineChars c hline
    rw [Record.isPlain, Bool.and_eq_true, decide_eq_true_eq, decide_eq_true_eq] at hplain
    have hle : c.toNat ≤ 127 := Nat.le_of_lt hplain.2
    exact if_pos hle
  · rw [List.mem_singleton.mp hend]
    rfl

/-! ## Sinks -/

namespace Sink

/-- As much of a text as there is room for. -/
def cut (room : Option Nat) (text : List Char) : List Char :=
  room.elim text fun room => text.take room

/-- Whether there is room for a text. -/
def fits (room : Option Nat) (text : List Char) : Bool := room.all fun room => text.length ≤ room

theorem fits_of_le {room : Option Nat} {text text' : List Char} (hle : text.length ≤ text'.length)
    (h : fits room text') : fits room text := by
  cases room with
  | none => rfl
  | some room =>
    rw [fits, Option.all_some, decide_eq_true_eq] at h ⊢
    exact Nat.le_trans hle h

/-- A sink to which a text was written. -/
def filled (room : Option Nat) (text : List Char) : Sink where
  text := cut room text
  room := room.map fun room => room - text.length

theorem filled_nil (room : Option Nat) : filled room [] = { room } := by
  cases room <;> simp [filled, cut]

/-- To store a record is to write its line and the end of it in one. -/
theorem store_eq (sink : Sink) (record : Record) :
    Backend.store sink record = sink.write record.ended := by
  obtain ⟨text, room⟩ := sink
  cases room with
  | none =>
    show (_, _) = _
    rw [Record.ended, write, List.append_assoc]
  | some room =>
    rw [Record.ended, write]
    simp only [Backend.store, write, List.take_append, List.length_append, List.length_singleton]
    by_cases hfits : record.lineChars.length ≤ room
    · simp only [if_pos hfits, List.append_assoc, Nat.sub_sub,
        Nat.le_sub_iff_add_le' hfits]
    · -- The line has no room, so there is none for its end either.
      have hnone : room - record.lineChars.length = 0 := by omega
      simp only [if_neg hfits, if_neg fun hboth => hfits (Nat.le_of_succ_le hboth), hnone,
        List.take_zero, List.append_nil, ← Nat.sub_sub]

/-- Storing a record adds its line to the text that was written. -/
theorem store_filled (room : Option Nat) (text : List Char) (record : Record) :
    Backend.store (filled room text) record = (filled room (text ++ record.ended),
      if fits room (text ++ record.ended) then .ok () else .error full) := by
  rw [store_eq, filled, filled]
  cases room with
  | none => rfl
  | some room =>
    -- A line with its end is not empty, so it does not fit once the room is exceeded.
    have hended : 0 < record.ended.length := by simp [Record.ended]
    have hfits : record.ended.length ≤ room - text.length ↔
        (text ++ record.ended).length ≤ room := by
      rw [List.length_append]
      omega
    simp only [write, cut, fits, Option.map_some, Option.elim_some, Option.all_some,
      decide_eq_true_eq, List.take_append, hfits, List.length_append, Nat.sub_sub]

end Sink

/-- The tracer has counted the calls that were let through, and their lines were written. -/
structure Written (config : TracerConfig) (room : Option Nat) (calls : List Call)
    (tracer : Tracer Sink) : Prop where
  numbered : Numbered config calls tracer
  backend : tracer.backend = .filled room (config.printed calls)

namespace Written

variable {config : TracerConfig} {room : Option Nat} {calls : List Call} {tracer : Tracer Sink}
  {call : Call}

/-- A call that is let through is told whether there was room for all that was to be written. -/
theorem answer (h : Written config room calls tracer) (haccepts : config.accepts call) :
    tracer.answer call =
      if Sink.fits room (config.printed (calls ++ [call])) then
        .ok (call.way.reveal (config.next calls call))
      else .error Sink.full := by
  rw [h.numbered.answer haccepts, h.backend, Sink.store_filled,
    TracerConfig.printed_concat_of_accepts haccepts]
  split <;> rfl

theorem concat (h : Written config room calls tracer) (call : Call) :
    Written config room (calls ++ [call]) (tracer.after call) := by
  refine ⟨h.numbered.concat call, ?_⟩
  cases haccepts : config.accepts call with
  | true =>
    rw [h.numbered.after haccepts, h.backend, Sink.store_filled,
      TracerConfig.printed_concat_of_accepts haccepts]
  | false =>
    rw [h.numbered.after_of_rejects haccepts, h.backend,
      TracerConfig.printed_concat_of_rejects haccepts]

theorem append (h : Written config room calls tracer) (later : List Call) :
    Written config room (calls ++ later) (tracer.afterAll later) := by
  induction later using List.reverseRecOn with
  | nil => rwa [List.append_nil]
  | append_singleton later call ih =>
    rw [← List.append_assoc, Tracer.afterAll_concat]
    exact ih.concat call

/-- Once something did not fit, nothing does. -/
theorem failing (h : Written config room calls tracer) {reason : String}
    (hfailed : tracer.answer call = .error (.backend reason)) (later : List Call) {last : Call}
    (haccepts : config.accepts last) :
    (tracer.afterAll (call :: later)).answer last = .error Sink.full := by
  -- The call that failed was let through, or it would have failed for its length.
  have hfull : ¬ Sink.fits room (config.printed (calls ++ [call])) := by
    intro hfits
    cases hcall : config.accepts call with
    | true =>
      rw [h.answer hcall, if_pos hfits] at hfailed
      cases hfailed
    | false =>
      rw [h.numbered.answer_of_rejects hcall] at hfailed
      cases hfailed
  have hmore := config.length_printed_le (calls ++ [call]) (later ++ [last])
  rw [List.append_assoc, List.singleton_append, ← List.cons_append, ← List.append_assoc] at hmore
  rw [(h.append (call :: later)).answer haccepts, if_neg]
  exact fun hfits => hfull (Sink.fits_of_le hmore hfits)

end Written

/-- A new tracer writes what is let through. -/
theorem written_afterAll (config : TracerConfig) (room : Option Nat) (calls : List Call) :
    Written config room calls
      (({ config, backend := { room } } : Tracer Sink).afterAll calls) := by
  have hnew : Written config room [] ({ config, backend := { room } } : Tracer Sink) :=
    ⟨.new config _, (Sink.filled_nil room).symm⟩
  exact hnew.append calls

/-- What is promised of a trace in a sink that takes everything. -/
structure Legible (config : TracerConfig) (calls : List Call) (tracer : Tracer Sink) : Prop where
  /-- Every call that is let through is written, and whoever calls directly gets the record. -/
  answered : ∀ call, config.accepts call →
    tracer.answer call = .ok (call.way.reveal (config.next calls call))
  /-- Between the ends of lines are the lines of the calls that were let through, in order. -/
  lines : tracer.backend.text.splitOn '\n' = (config.notes calls).map Record.lineChars ++ [[]]
  /-- From the text alone all that was recorded is read back. -/
  read : Reading.text? tracer.backend.text = some ((config.notes calls).map Record.reading)

/-- What is promised of a trace in a sink that takes no more than some number of bytes. -/
structure CutOff (config : TracerConfig) (room : Nat) (calls : List Call) (tracer : Tracer Sink) :
    Prop where
  /-- The text is the beginning of what was to be written. -/
  text : tracer.backend.text = (config.printed calls).take room
  /-- What was to be written has one byte for each character. -/
  bytes : ∀ c ∈ config.printed calls, c.utf8Size = 1
  /-- A call that is let through fails if and only if there is no room for its whole line. -/
  answered : ∀ call, config.accepts call → tracer.answer call =
    if (config.printed (calls ++ [call])).length ≤ room then
      .ok (call.way.reveal (config.next calls call))
    else .error Sink.full
  /-- After one has failed all others do. -/
  failing : ∀ call reason later last, tracer.answer call = .error (.backend reason) →
    config.accepts last → (tracer.afterAll (call :: later)).answer last = .error Sink.full

/-- A written trace can be read, and if it is cut off then at its end only. -/
theorem legible_and_cutOff (config : TracerConfig) (calls : List Call) :
    (∀ record : Record, Reading.line? record.lineChars = some record.reading) ∧
      Legible config calls (({ config, backend := {} } : Tracer Sink).afterAll calls) ∧
      ∀ room, CutOff config room calls
        (({ config, backend := { room := some room } } : Tracer Sink).afterAll calls) := by
  have hall := written_afterAll config none calls
  refine ⟨Reading.line?_lineChars, ⟨fun call => hall.answer, ?_, ?_⟩, fun room => ?_⟩
  · rw [hall.backend]
    exact splitOn_flatMap_ended _
  · rw [hall.backend]
    exact text?_flatMap_ended _
  · have hsome := written_afterAll config (some room) calls
    refine ⟨by rw [hsome.backend]; rfl, fun c => config.utf8Size_of_mem_printed,
      fun call haccepts => ?_, fun call reason later last hfailed => hsome.failing hfailed later⟩
    rw [hsome.answer haccepts, Sink.fits, Option.all_some]
    simp only [decide_eq_true_eq]

end CoopKernel.Trace
