import Mathlib.Data.List.DropRight
import Mathlib.Data.List.Induction
import CoopKernel.Trace.Tracer

/-!
# Numbering

A tracer is called from several sides: directly, and through any number of hooks, which show nobody
the record. All of them share one counter. Only calls that are let through count
(`TracerConfig.notes`), so their records are numbered one after the other without a gap, wherever
other calls were turned away in between. A call that is let through is stored under the next number
(`Numbered.answer`, `Numbered.after`), and one that is turned away does nothing
(`Numbered.answer_of_rejects`, `Numbered.after_of_rejects`).

That much holds of any backend. The one in memory can be cleared besides, which forgets records and
numbers nothing anew (`Recorded`).
-/

namespace CoopKernel.Trace

/-- The ways to a tracer. -/
inductive Way
  | emit
  | hook (number : Nat)
deriving DecidableEq, Repr

/-- What a way shows of the record that was made: a hook shows nothing. -/
def Way.reveal (record : Record) : Way → Option Record
  | .emit => some record
  | .hook _ => none

/-- A call of a tracer. -/
structure Call where
  way : Way
  code : UInt8
  payload : List UInt8
  tick : Nat
deriving DecidableEq, Repr

namespace TracerConfig

/-- Whether a call is let through. -/
def accepts (config : TracerConfig) (call : Call) : Bool := call.payload.length ≤ config.maxPayload

/-- The record of the `n`-th call that is let through. -/
def note (config : TracerConfig) (n : Nat) (call : Call) : Record where
  seq := .ofNat n
  code := call.code
  tick := if config.includeTick then some call.tick else none
  payload := call.payload

/-- The records of the calls that are let through, numbered one after the other. -/
def notes (config : TracerConfig) (calls : List Call) : List Record :=
  (calls.filter config.accepts).mapIdx fun k call => config.note (k + 1) call

/-- The record that a call becomes after others, if it is let through. -/
def next (config : TracerConfig) (calls : List Call) (call : Call) : Record :=
  config.note ((config.notes calls).length + 1) call

variable {config : TracerConfig} {calls : List Call} {call : Call}

theorem length_notes : (config.notes calls).length = (calls.filter config.accepts).length :=
  List.length_mapIdx

theorem notes_concat_of_accepts (h : config.accepts call) :
    config.notes (calls ++ [call]) = config.notes calls ++ [config.next calls call] := by
  rw [next, length_notes, notes, List.filter_append, List.filter_singleton, h, cond_true,
    List.mapIdx_concat, notes]

theorem notes_concat_of_rejects (h : config.accepts call = false) :
    config.notes (calls ++ [call]) = config.notes calls := by
  rw [notes, List.filter_append, List.filter_singleton, h, cond_false, List.append_nil, notes]

end TracerConfig

namespace Tracer

variable {β : Type} [Backend β]

/-- How a call is answered. -/
def answer (tracer : Tracer β) (call : Call) : Except TraceError (Option Record) :=
  (tracer.record call.code call.payload call.tick).2.map call.way.reveal

/-- The tracer after a call. -/
def after (tracer : Tracer β) (call : Call) : Tracer β :=
  (tracer.record call.code call.payload call.tick).1

/-- The tracer after calls, one after the other. -/
def afterAll (tracer : Tracer β) (calls : List Call) : Tracer β := calls.foldl after tracer

theorem afterAll_concat (tracer : Tracer β) (calls : List Call) (call : Call) :
    tracer.afterAll (calls ++ [call]) = (tracer.afterAll calls).after call :=
  List.foldl_concat ..

end Tracer

/-- The tracer has counted the calls that were let through. -/
structure Numbered {β : Type} (config : TracerConfig) (calls : List Call) (tracer : Tracer β) :
    Prop where
  configured : tracer.config = config
  seq : tracer.seq = .ofNat (config.notes calls).length

namespace Numbered

variable {β : Type} {config : TracerConfig} {calls : List Call} {call : Call} {tracer : Tracer β}

theorem new (config : TracerConfig) (backend : β) : Numbered config [] { config, backend } where
  configured := rfl
  seq := rfl

variable [Backend β]

/-- A call that is let through becomes the next record, which goes to the backend. -/
theorem record (h : Numbered config calls tracer) (haccepts : config.accepts call) :
    tracer.record call.code call.payload call.tick =
      ({ tracer with
          seq := (config.next calls call).seq
          backend := (Backend.store tracer.backend (config.next calls call)).1 },
        (Backend.store tracer.backend (config.next calls call)).2.map fun _ =>
          config.next calls call) := by
  have hlength : ¬ tracer.config.maxPayload < call.payload.length := by
    rw [h.configured]
    exact Nat.not_lt.mpr (of_decide_eq_true haccepts)
  have hseq : (config.next calls call).seq = tracer.seq + 1 := by
    rw [h.seq]
    exact UInt32.ofNat_add _ _
  rw [Tracer.record, if_neg hlength, hseq, h.configured, ← hseq]
  rfl

theorem answer (h : Numbered config calls tracer) (haccepts : config.accepts call) :
    tracer.answer call = (Backend.store tracer.backend (config.next calls call)).2.map fun _ =>
      call.way.reveal (config.next calls call) := by
  rw [Tracer.answer, h.record haccepts]
  cases (Backend.store tracer.backend (config.next calls call)).2 <;> rfl

theorem after (h : Numbered config calls tracer) (haccepts : config.accepts call) :
    tracer.after call =
      { tracer with
        seq := (config.next calls call).seq
        backend := (Backend.store tracer.backend (config.next calls call)).1 } := by
  rw [Tracer.after, h.record haccepts]

theorem record_of_rejects (h : Numbered config calls tracer)
    (hrejects : config.accepts call = false) :
    tracer.record call.code call.payload call.tick =
      (tracer, .error (.payloadTooLarge call.payload.length)) := by
  have hlength : tracer.config.maxPayload < call.payload.length := by
    rw [h.configured]
    exact Nat.not_le.mp (of_decide_eq_false hrejects)
  rw [Tracer.record, if_pos hlength]

theorem answer_of_rejects (h : Numbered config calls tracer)
    (hrejects : config.accepts call = false) :
    tracer.answer call = .error (.payloadTooLarge call.payload.length) := by
  rw [Tracer.answer, h.record_of_rejects hrejects]
  rfl

theorem after_of_rejects (h : Numbered config calls tracer)
    (hrejects : config.accepts call = false) : tracer.after call = tracer := by
  rw [Tracer.after, h.record_of_rejects hrejects]

/-- One more call is counted if it is let through. -/
theorem concat (h : Numbered config calls tracer) (call : Call) :
    Numbered config (calls ++ [call]) (tracer.after call) := by
  cases haccepts : config.accepts call with
  | true =>
    rw [h.after haccepts]
    refine ⟨h.configured, ?_⟩
    rw [TracerConfig.notes_concat_of_accepts haccepts, List.length_append]
    rfl
  | false =>
    rw [h.after_of_rejects haccepts]
    exact ⟨h.configured, by rw [TracerConfig.notes_concat_of_rejects haccepts, h.seq]⟩

end Numbered

/-! ## Records in memory -/

namespace Memory

/-- What can be asked of a tracer that keeps its records in memory. -/
inductive Request
  | call (call : Call)
  | clear
deriving DecidableEq, Repr

/-- The calls among requests. -/
def Request.call? : Request → Option Call
  | .call made => some made
  | .clear => none

/-- The calls among requests. -/
def calls (requests : List Request) : List Call := requests.filterMap Request.call?

/-- The requests up to the last one that clears the memory. -/
def untilClear (requests : List Request) : List Request := requests.rdropWhile (· ≠ .clear)

end Memory

open CoopKernel.Trace.Memory (Request untilClear)

/-- The tracer after a request. -/
def Tracer.perform (tracer : Tracer Memory) : Request → Tracer Memory
  | .call call => tracer.after call
  | .clear => { tracer with backend := tracer.backend.clear }

/-- The tracer after requests, one after the other. -/
def Tracer.performAll (tracer : Tracer Memory) (requests : List Request) : Tracer Memory :=
  requests.foldl perform tracer

theorem Memory.calls_concat (requests : List Request) (request : Request) :
    Memory.calls (requests ++ [request]) = Memory.calls requests ++ request.call?.toList := by
  rw [calls, List.filterMap_append, calls]
  cases request <;> rfl

/-- There are no more calls before the last clearing than there are calls. -/
theorem Memory.length_notes_untilClear (config : TracerConfig) (requests : List Request) :
    (config.notes (Memory.calls (untilClear requests))).length ≤
      (config.notes (Memory.calls requests)).length := by
  rw [TracerConfig.length_notes, TracerConfig.length_notes]
  exact (((List.rdropWhile_prefix _ _).sublist.filterMap _).filter _).length_le

/-- The tracer has counted the calls that were let through, and the memory has the records of those
that came after it was cleared. -/
structure Recorded (config : TracerConfig) (requests : List Request) (memory : Tracer Memory) :
    Prop where
  numbered : Numbered config (Memory.calls requests) memory
  records : memory.backend.records = (config.notes (Memory.calls requests)).drop
    (config.notes (Memory.calls (untilClear requests))).length

/-- One more request keeps the count, and the memory has what was let through since. -/
theorem Recorded.concat {config : TracerConfig} {requests : List Request} {memory : Tracer Memory}
    (h : Recorded config requests memory) (request : Request) :
    Recorded config (requests ++ [request]) (memory.perform request) := by
  obtain ⟨hnumbered, hrecords⟩ := h
  cases request with
  | clear =>
    refine ⟨?_, ?_⟩
    · rw [Memory.calls_concat, Request.call?, Option.toList_none, List.append_nil]
      exact ⟨hnumbered.configured, hnumbered.seq⟩
    · rw [untilClear, List.rdropWhile_concat_neg _ _ _ (by simp), List.drop_length]
      rfl
  | call call =>
    refine ⟨?_, ?_⟩
    · rw [Memory.calls_concat]
      exact hnumbered.concat call
    · rw [untilClear, List.rdropWhile_concat_pos _ _ _ (by simp), ← untilClear,
        Memory.calls_concat, Request.call?, Option.toList_some, Tracer.perform]
      cases haccepts : config.accepts call with
      | true =>
        -- What was forgotten was numbered before, so the new record is not among it.
        rw [hnumbered.after haccepts, TracerConfig.notes_concat_of_accepts haccepts,
          List.drop_append_of_le_length (Memory.length_notes_untilClear config requests),
          ← hrecords]
        rfl
      | false =>
        rw [hnumbered.after_of_rejects haccepts, TracerConfig.notes_concat_of_rejects haccepts,
          hrecords]

theorem recorded_performAll (config : TracerConfig) (requests : List Request) :
    Recorded config requests (({ config, backend := {} } : Tracer Memory).performAll requests) := by
  induction requests using List.reverseRecOn with
  | nil => exact ⟨⟨rfl, rfl⟩, rfl⟩
  | append_singleton requests request ih =>
    rw [Tracer.performAll, List.foldl_concat]
    exact ih.concat request

/-- What is promised of a tracer that keeps its records in memory, after requests. -/
structure Gapless (config : TracerConfig) (requests : List Request) (memory : Tracer Memory) :
    Prop where
  /-- The memory has the records of all calls that were let through since it was last cleared, as
  they were numbered from the beginning. -/
  records : memory.backend.records = (config.notes (Memory.calls requests)).drop
    (config.notes (Memory.calls (untilClear requests))).length
  /-- A call that is not too long is the next to be numbered, by whatever way it comes, and is kept
  as it was made. -/
  accepted : ∀ call : Call, call.payload.length ≤ config.maxPayload → ∃ record : Record,
    record.seq.toNat = ((config.notes (Memory.calls requests)).length + 1) % UInt32.size ∧
      record.code = call.code ∧ record.payload = call.payload ∧
      record.tick = (if config.includeTick then some call.tick else none) ∧
      memory.answer call = .ok (call.way.reveal record) ∧
      (memory.perform (.call call)).backend.records = memory.backend.records ++ [record]
  /-- A call that is too long is told how long it is, and nothing comes of it. -/
  rejected : ∀ call : Call, config.maxPayload < call.payload.length →
    memory.answer call = .error (.payloadTooLarge call.payload.length) ∧
      memory.perform (.call call) = memory

/-- The records of a tracer are numbered without a gap, however calls are mixed with clearings and
with calls that are turned away. -/
theorem gapless_performAll (config : TracerConfig) (requests : List Request) :
    Gapless config requests (({ config, backend := {} } : Tracer Memory).performAll requests) := by
  obtain ⟨hnumbered, hrecords⟩ := recorded_performAll config requests
  refine ⟨hrecords, fun call hlength => ?_, fun call hlength => ?_⟩
  · have haccepts : config.accepts call := decide_eq_true hlength
    refine ⟨config.next (Memory.calls requests) call, UInt32.toNat_ofNat', rfl, rfl, rfl,
      hnumbered.answer haccepts, ?_⟩
    rw [Tracer.perform, hnumbered.after haccepts]
    rfl
  · have hrejects : config.accepts call = false := decide_eq_false (Nat.not_le.mpr hlength)
    exact ⟨hnumbered.answer_of_rejects hrejects, hnumbered.after_of_rejects hrejects⟩

example : (({ config := { maxPayload := 1 }, backend := {} } : Tracer Memory).performAll
    [.call ⟨.emit, 1, [], 0⟩, .call ⟨.hook 3, 50, [7, 7], 0⟩, .clear,
      .call ⟨.hook 3, 50, [7], 5⟩]).backend.records = [⟨2, 50, some 5, [7]⟩] := by decide

end CoopKernel.Trace
