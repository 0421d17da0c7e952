import Mathlib.Data.List.Basic
import Randomness.Proofs.Canonical
import Randomness.Proofs.EventLog
import Randomness.Proofs.History
import Randomness.Proofs.Refinement

/-!
Which lines carry which events, and that the log of a transaction carries the events that its instructions
emitted.
-/

namespace Randomness

theorem Bytes.eq_of_slice? {bs : Bytes} {i n : Nat} {b : Block n} (h : bs.slice? i n = some b) :
    bs = bs.take i ++ (b.bytes ++ bs.drop (i + n)) := by
  obtain ⟨fits, whole⟩ := Option.dite_none_right_eq_some.1 h
  obtain rfl := Option.some.inj whole
  rw [Bytes.slice, ← List.drop_drop, List.take_append_drop, List.take_append_drop]

theorem Codec.eq_of_readAt? {c : Codec α} {a : α} {bs : Bytes} {i : Nat} (h : c.readAt? bs i = some a) :
    bs = bs.take i ++ (c.encode a ++ bs.drop (i + c.width)) := by
  obtain ⟨b, slice, rfl⟩ := Option.map_eq_some_iff.1 h
  rw [Codec.encode, c.write_read]
  exact Bytes.eq_of_slice? slice

theorem Codec.append_of_readAt? {c : Codec α} {a : α} {bs : Bytes} {d : Discriminator}
    (head : bs.slice? 0 8 = some d) (h : c.readAt? bs 8 = some a) :
    ∃ rest, bs = d.bytes ++ c.encode a ++ rest := by
  have front : bs = d.bytes ++ bs.drop (0 + 8) := Bytes.eq_of_slice? head
  have first : bs.take 8 = d.bytes := by
    rw [front]
    exact List.take_left' d.length_eq
  have whole := Codec.eq_of_readAt? h
  rw [first, ← List.append_assoc] at whole
  exact ⟨_, whole⟩

namespace Event

/-- What is read behind an event's discriminator was written there. -/
theorem append_of_readAt? {c : Codec α} {make : α → Event} {d : Discriminator} {data : Bytes} {e : Event}
    (written : ∀ f, (make f).encode = d.bytes ++ c.encode f) (head : data.slice? 0 8 = some d)
    (h : (c.readAt? data 8).map make = some e) : ∃ rest, data = e.encode ++ rest := by
  obtain ⟨f, read, rfl⟩ := Option.map_eq_some_iff.1 h
  rw [written]
  exact Codec.append_of_readAt? head read

/-- Bytes carry the event that they start with, and no other. -/
theorem decode?_eq_some_iff {data : Bytes} {e : Event} :
    decode? data = some e ↔ ∃ rest, data = e.encode ++ rest := by
  constructor
  · intro h
    obtain ⟨d, head, h⟩ := Option.bind_eq_some_iff.1 h
    split at h
    · next same =>
      subst same
      exact append_of_readAt? (fun _ => rfl) head h
    split at h
    · next same =>
      subst same
      exact append_of_readAt? (fun _ => rfl) head h
    split at h
    · next same =>
      subst same
      exact append_of_readAt? (fun _ => rfl) head h
    split at h
    · next same =>
      subst same
      exact append_of_readAt? (fun _ => rfl) head h
    split at h
    · next same =>
      subst same
      exact append_of_readAt? (fun _ => rfl) head h
    · cases h
  · rintro ⟨rest, rfl⟩
    exact decode?_encode_append e rest

/-- A line carries an event exactly if it is the prefix and, between blanks, the written form of bytes that
start with the event. -/
theorem ofLogLine?_eq_some_iff {line : String} {e : Event} :
    ofLogLine? line = some e ↔ ∃ text rest, line.toList = linePrefix.toList ++ text ∧
      Text.trim text = Base64.encodeChars (e.encode ++ rest) := by
  constructor
  · intro h
    obtain ⟨text, start, h⟩ := Option.bind_eq_some_iff.1 h
    cases decoded : Base64.decode (Text.utf8 (Text.trim text)) with
    | error f =>
      rw [decoded] at h
      cases h
    | ok data =>
      rw [decoded] at h
      obtain ⟨rest, rfl⟩ := decode?_eq_some_iff.1 h
      exact ⟨text, rest, Text.afterPrefix?_eq_some start, Base64.decode_eq_ok_iff.1 decoded⟩
  · rintro ⟨text, rest, start, written⟩
    have decoded := Base64.decode_eq_ok_iff.2 written
    rw [ofLogLine?, start, Text.afterPrefix?_append]
    simp only [Option.bind_eq_bind, Option.bind_some, decoded, decode?_encode_append]

theorem ofLogLine?_eq_none {line : String} (h : ¬ linePrefix.toList <+: line.toList) :
    ofLogLine? line = none := by
  rw [Option.eq_none_iff_forall_not_mem]
  intro e found
  obtain ⟨text, _, start, _⟩ := ofLogLine?_eq_some_iff.1 found
  exact h ⟨text, start.symm⟩

/-- Events between other lines. -/
theorem ofLog_interleaved (lines : List (Event ⊕ String))
    (others : ∀ s, Sum.inr s ∈ lines → ¬ linePrefix.toList <+: s.toList) :
    ofLog (lines.map (Sum.elim logLine id)) = lines.filterMap Sum.getLeft? := by
  rw [ofLog, List.filterMap_map]
  refine List.filterMap_congr fun x hx => ?_
  cases x with
  | inl e => exact ofLogLine?_logLine e
  | inr s => exact ofLogLine?_eq_none (others s hx)

end Event

/-- The events that an instruction emitted. -/
def Deed.events (d : Deed) : List Event := d.log.filterMap LogEntry.event?

section

variable [Crypto]

/-- The instructions of a transaction, one after the other, with what they logged. -/
theorem Ledger.deeds_of_executeFrom {x : Surroundings} {n : Nat} {s : Accounts} {is : List Instruction}
    {effect : Effect} (run : executeFrom x n s is = .ok effect) :
    (x.deeds s is).map Deed.instruction = is ∧
    (∀ d ∈ x.deeds s is,
      Coordinator.execute d.toSurroundings d.instruction d.before = .ok ⟨d.after, d.log⟩) ∧
    effect.log.filterMap LogEntry.event? = (x.deeds s is).flatMap Deed.events := by
  induction is generalizing n s effect with
  | nil =>
    cases run
    simp [Surroundings.deeds]
  | cons i is ih =>
    simp only [executeFrom, bind_eq_ok, mapError_eq_ok, pure_eq_ok] at run
    obtain ⟨first, does, others, run, rfl⟩ := run
    obtain ⟨instructions, runs, events⟩ := ih run
    simp only [Surroundings.deeds, does]
    refine ⟨congrArg _ instructions, List.forall_mem_cons.2 ⟨does, runs⟩, ?_⟩
    simp only [List.filterMap_cons, List.filterMap_append, LogEntry.event?, events, List.flatMap_cons,
      Deed.events]

namespace Event

/-- Events are read back from their bytes whatever follows, and from lines, which carry them in no other form;
a log tells the events between its other lines, and that of a transaction those of its instructions, in order. -/
theorem survives_log :
    (∀ (e : Event) (rest : Bytes), decode? (e.encode ++ rest) = some e ∧
      ofLogLine? (dataLine (e.encode ++ rest)) = some e) ∧
    (∀ e : Event, decode? e.encode = some e ∧ ofLogLine? e.logLine = some e) ∧
    (∀ (line : String) (e : Event), ofLogLine? line = some e ↔
      ∃ text rest, line.toList = "Program data: ".toList ++ text ∧
        Text.trim text = Base64.encodeChars (e.encode ++ rest)) ∧
    (∀ lines : List (Event ⊕ String),
      (∀ s, Sum.inr s ∈ lines → ¬ "Program data: ".toList <+: s.toList) →
      ofLog (lines.map (Sum.elim logLine id)) = lines.filterMap Sum.getLeft?) ∧
    ∀ (l l' : Ledger) (is : List Instruction) (signers : List Address) (x : Execution),
      l.submit is signers = .ok (l', x) →
      (l.executed is signers).map Deed.instruction = is ∧
      (∀ d ∈ l.executed is signers,
        Coordinator.execute d.toSurroundings d.instruction d.before = .ok ⟨d.after, d.log⟩) ∧
      ofLog x.logs = (l.executed is signers).flatMap Deed.events := by
  refine ⟨?_, ?_, fun line e => ofLogLine?_eq_some_iff, ofLog_interleaved, ?_⟩
  · intro e rest
    have read := decode?_encode_append e rest
    exact ⟨read, (ofLogLine?_dataLine _).trans read⟩
  · intro e
    exact ⟨decode?_eq_some_iff.2 ⟨[], (List.append_nil _).symm⟩, ofLogLine?_logLine e⟩
  · intro l l' is signers x submitted
    simp only [Ledger.executed, submitted]
    obtain ⟨slot, effect, _, _, run, _, rfl, rfl⟩ := Ledger.submit_eq_ok.1 submitted
    obtain ⟨instructions, runs, events⟩ := Ledger.deeds_of_executeFrom run
    exact ⟨instructions, runs, (ofLog_text effect.log).trans events⟩

end Event

end

namespace Recorded

/-- The event of the request that the opening makes. -/
def emitted : Event :=
  .randomnessRequested
    { requestId := 0, requester := consumer, seed := ⟨List.replicate 32 4, rfl⟩, requestSlot := 101 }

theorem opening_emits : ((@Submission.instructions crypto opening).toOption.bind fun is =>
    (@Ledger.submit crypto Ledger.fresh is opening.signers).toOption.map fun _ =>
      (@Ledger.executed crypto Ledger.fresh is opening.signers).flatMap Deed.events) = some [emitted] := by
  decide +kernel

/-- The event is read from the opening's log, and from its own line between others. -/
theorem opening_logged : (∃ is l x, @Submission.instructions crypto opening = .ok is ∧
      @Ledger.submit crypto Ledger.fresh is opening.signers = .ok (l, x) ∧ Event.ofLog x.logs = [emitted]) ∧
    Event.ofLog ["Program log: data", emitted.logLine, "Program data:"] = [emitted] := by
  let _ := crypto
  obtain ⟨_, _, _, interleaved, transactions⟩ := Event.survives_log
  constructor
  · obtain ⟨is, made, rest⟩ := Option.bind_eq_some_iff.1 opening_emits
    obtain ⟨⟨l, x⟩, submitted, emits⟩ := Option.map_eq_some_iff.1 rest
    have made : opening.instructions = .ok is := toOption_eq_some.1 made
    have submitted : Ledger.fresh.submit is opening.signers = .ok (l, x) := toOption_eq_some.1 submitted
    exact ⟨is, l, x, made, submitted, (transactions _ _ _ _ _ submitted).2.2.trans emits⟩
  · refine interleaved [.inr "Program log: data", .inl emitted, .inr "Program data:"] ?_
    intro s hs
    simp only [List.mem_cons, reduceCtorEq, Sum.inr.injEq, List.not_mem_nil, or_false, false_or] at hs
    rcases hs with rfl | rfl <;> decide

end Recorded

end Randomness
