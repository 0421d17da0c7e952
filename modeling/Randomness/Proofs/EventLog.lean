import Randomness.Coordinator
import Randomness.Proofs.Armor
import Randomness.Proofs.RoundTrip

/-!
Events read back from a log: each event from its own line, and nothing from the lines around it.
-/

namespace Randomness

theorem Codec.readAt?_append (c : Codec α) (a : α) (front : Block n) (rest : Bytes) :
    c.readAt? (front.bytes ++ (c.encode a ++ rest)) n = some a := by
  have slice := Bytes.slice?_append front (c.write a) rest
  rw [Codec.readAt?, Codec.encode, slice, Option.map_some, c.read_write]

namespace Event

theorem decode?_encode_append (e : Event) (rest : Bytes) : decode? (e.encode ++ rest) = some e := by
  have head (d : Discriminator) (bs : Bytes) : (d.bytes ++ bs).slice? 0 8 = some d :=
    Bytes.slice?_append ⟨[], rfl⟩ d bs
  cases e with
  | randomnessRequested e =>
    rw [encode, List.append_assoc, decode?, head, Codec.readAt?_append]
    rfl
  | compressedRandomnessRequested e =>
    rw [encode, List.append_assoc, decode?, head, Codec.readAt?_append]
    rfl
  | randomWordsRequested e =>
    rw [encode, List.append_assoc, decode?, head, Codec.readAt?_append]
    rfl
  | randomnessFulfilled e =>
    rw [encode, List.append_assoc, decode?, head, Codec.readAt?_append]
    rfl
  | randomWordsFulfilled e =>
    rw [encode, List.append_assoc, decode?, head, Codec.readAt?_append]
    rfl

theorem trim_eq_self {cs : List Char} (h : ∀ c ∈ cs, Text.isBlank c = false) : Text.trim cs = cs := by
  have keep (ds : List Char) (hd : ∀ c ∈ ds, Text.isBlank c = false) : ds.dropWhile Text.isBlank = ds := by
    cases ds with
    | nil => rfl
    | cons d ds => exact List.dropWhile_cons_of_neg (by simp [hd d List.mem_cons_self])
  rw [Text.trim, keep cs h, keep cs.reverse (by simpa using h), List.reverse_reverse]

/-- The line of bytes carries the event that the bytes start with. -/
theorem ofLogLine?_dataLine (data : Bytes) : ofLogLine? (dataLine data) = decode? data := by
  have line : (dataLine data).toList = linePrefix.toList ++ Base64.encodeChars data := by
    rw [dataLine, String.toList_append, Base64.encode, String.toList_ofList]
  have text := trim_eq_self fun c hc => @Base64.not_isBlank_of_mem data c hc
  rw [ofLogLine?, line, Text.afterPrefix?_append]
  simp only [Option.bind_eq_bind, Option.bind_some, text, Base64.decode_encodeChars]

theorem ofLogLine?_logLine (e : Event) : ofLogLine? e.logLine = some e := by
  have read := decode?_encode_append e []
  rw [List.append_nil] at read
  rw [logLine, ofLogLine?_dataLine, read]

end Event

namespace Address

theorem alphabet_getD (n : Nat) : Base58.alphabet.getD n '1' ∈ Base58.alphabet := by
  rw [List.getD_eq_getElem?_getD]
  cases h : Base58.alphabet[n]? with
  | none => decide
  | some c => exact List.mem_of_getElem? h

theorem text_mem {a : Address} {c : Char} (h : c ∈ a.text.toList) : c ∈ Base58.alphabet := by
  rw [text, Base58.encode, String.toList_ofList] at h
  rcases List.mem_append.1 h with h | h
  · obtain ⟨_, _, rfl⟩ := List.mem_map.1 h
    decide
  · obtain ⟨n, _, rfl⟩ := List.mem_map.1 h
    exact alphabet_getD n

end Address

namespace Event

/-- A line that names a program carries no event: an address has neither blank nor colon. -/
theorem ofLogLine?_program (a : Address) (rest : List Char) {line : String}
    (h : line.toList = "Program ".toList ++ (a.text.toList ++ ' ' :: rest)) : ofLogLine? line = none := by
  cases found : Text.afterPrefix? linePrefix.toList line.toList with
  | none => rw [ofLogLine?, found]; rfl
  | some r =>
    have start : linePrefix.toList = "Program ".toList ++ ("data:".toList ++ [' ']) := by decide
    have same := Text.afterPrefix?_eq_some found
    rw [h, start, List.append_assoc, List.append_assoc, List.append_cancel_left_eq] at same
    have word (cs : List Char) (hc : ' ' ∉ cs) (ds : List Char) :
        (cs ++ ' ' :: ds).takeWhile (· ≠ ' ') = cs := by
      rw [List.takeWhile_append_of_pos]
      · simp
      · intro c hcs
        simpa using fun e : c = ' ' => hc (e ▸ hcs)
    have blank : ' ' ∉ a.text.toList := fun hc => absurd (Address.text_mem hc) (by decide)
    have text : a.text.toList = "data:".toList := by
      rw [← word a.text.toList blank rest, same]
      exact word _ (by decide) r
    have colon : ':' ∈ a.text.toList := by
      rw [text]
      decide
    exact absurd (Address.text_mem colon) (by decide)

end Event

/-- The event of an entry, if it is one. -/
def LogEntry.event? : LogEntry → Option Event
  | event e => some e
  | _ => none

theorem LogEntry.ofLogLine?_text (e : LogEntry) : Event.ofLogLine? e.text = e.event? := by
  cases e with
  | event e => exact Event.ofLogLine?_logLine e
  | invoke program depth =>
    apply Event.ofLogLine?_program program ("invoke [".toList ++ (toString depth).toList ++ "]".toList)
    simp only [text, String.toList_append, List.append_assoc]
    rfl
  | success program =>
    apply Event.ofLogLine?_program program "success".toList
    simp only [text, String.toList_append, List.append_assoc]
    rfl

/-- What is read from a log is what was put there. -/
theorem Event.ofLog_text (log : List LogEntry) :
    Event.ofLog (log.map LogEntry.text) = log.filterMap LogEntry.event? := by
  rw [Event.ofLog, List.filterMap_map]
  congr 1
  funext e
  exact e.ofLogLine?_text

end Randomness
