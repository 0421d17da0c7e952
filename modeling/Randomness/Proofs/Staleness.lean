import Randomness.Node.Remote
import Randomness.Proofs.Retrying

/-!
Which failures make a node's client try again. The client looks for the name of the cause in the words of an
error. The words for an unknown blockhash do not have that name in them, and a node's own words may have it
anywhere.
-/

namespace Randomness

namespace Text

/-- A word does not reach over a character that it does not have. -/
theorem infix_separated_iff {w xs ys : List Char} {c : Char} (hc : c ∉ w) :
    w <:+: xs ++ c :: ys ↔ w <:+: xs ∨ w <:+: ys := by
  constructor
  · intro h
    rcases List.infix_append_iff_ne_nil.1 h with left | right | ⟨l, m, -, hm, rfl, -, reached⟩
    · exact .inl left
    · rcases List.infix_cons_iff.1 right with start | later
      · cases w with
        | nil => exact .inl List.nil_infix
        | cons a w =>
          obtain ⟨rfl, -⟩ := List.cons_prefix_cons.1 start
          exact absurd (List.mem_cons_self ..) hc
      · exact .inr later
    · cases m with
      | nil => exact absurd rfl hm
      | cons a m =>
        obtain ⟨rfl, -⟩ := List.cons_prefix_cons.1 reached
        exact absurd (List.mem_append_right _ (List.mem_cons_self ..)) hc
  · rintro (left | right)
    · exact List.infix_append_of_infix_left left
    · exact List.infix_append_of_infix_right (List.infix_cons right)

end Text

namespace NodeError

/-- The word that is looked for. -/
def word : List Char := "BlockhashNotFound".toList

theorem not_infix_of_not_mem {cs : List Char} (h : 'B' ∉ cs) : ¬ word <:+: cs := fun within =>
  h (within.subset (by decide))

theorem not_mem_repr (n : Nat) : 'B' ∉ n.repr.toList := by
  rw [Nat.toList_repr]
  intro h
  exact absurd (Nat.isDigit_of_mem_toDigits (by decide) (by decide) h) (by decide)

theorem not_mem_toString (n : Int) : 'B' ∉ (toString n).toList := by
  cases n with
  | ofNat n => exact not_mem_repr n
  | negSucc n =>
    change 'B' ∉ ("-" ++ (n + 1).repr).toList
    rw [String.toList_append, List.mem_append, not_or]
    exact ⟨by decide, not_mem_repr _⟩

theorem not_infix_nil : ¬ word <:+: ([] : List Char) := not_infix_of_not_mem List.not_mem_nil

theorem blank_not_mem : ' ' ∉ word := by decide

theorem newline_not_mem : '\n' ∉ word := by decide

theorem infix_blank_iff {cs : List Char} : word <:+: ' ' :: cs ↔ word <:+: cs := by
  have apart : word <:+: [] ++ ' ' :: cs ↔ _ := Text.infix_separated_iff blank_not_mem
  exact apart.trans (or_iff_right not_infix_nil)

theorem infix_lines_iff {logs : List String} :
    word <:+: (String.join (logs.map fun line => "  " ++ line ++ "\n")).toList ↔
      ∃ line ∈ logs, word <:+: line.toList := by
  induction logs with
  | nil => exact iff_of_false not_infix_nil (by simp)
  | cons line logs ih =>
    have first : (String.join ((line :: logs).map fun line => "  " ++ line ++ "\n")).toList =
        ' ' :: ' ' :: (line.toList ++
          '\n' :: (String.join (logs.map fun line => "  " ++ line ++ "\n")).toList) := by
      rw [List.map_cons, String.join_cons, String.toList_append]
      simp
    rw [first, infix_blank_iff, infix_blank_iff, Text.infix_separated_iff newline_not_mem, ih]
    simp

/-- Of a tried transaction, the word stands in a line of the log. -/
theorem infix_preflight_iff {found : Preflight} :
    word <:+: found.text.toList ↔ ∃ line ∈ found.logs, word <:+: line.toList := by
  rw [Preflight.text]
  by_cases empty : found.logs = []
  · rw [empty]
    exact iff_of_false not_infix_nil (by simp)
  · have some : found.logs.isEmpty = false := List.isEmpty_eq_false_iff.2 empty
    have text (lines : String) : (toString found.logs.length ++ " log messages:\n" ++ lines).toList =
        (found.logs.length.repr.toList ++ " log messages:".toList) ++ '\n' :: lines.toList := by
      simp
    have count : 'B' ∉ found.logs.length.repr.toList ++ " log messages:".toList := by
      rw [List.mem_append, not_or]
      exact ⟨not_mem_repr _, by decide⟩
    simp only [some, Bool.false_eq_true, if_false]
    rw [text, Text.infix_separated_iff newline_not_mem, or_iff_right (not_infix_of_not_mem count),
      infix_lines_iff]

/-- The words for a node's refusal have the word in the node's own message, or in the log of the tried
transaction. -/
theorem isStale_response_iff {code : Int} {message : String} {preflight : Option Preflight} :
    (response code message preflight).isStale = true ↔
      word <:+: message.toList ∨ ∃ found ∈ preflight, ∃ line ∈ found.logs, word <:+: line.toList := by
  have text (tried : String) : ("RPC response error " ++ toString code ++ ": " ++ message ++ "; " ++ tried).toList =
      "RPC response error".toList ++ ' ' :: (((toString code).toList ++ [':']) ++ ' ' :: ((message.toList ++ [';']) ++
        ' ' :: tried.toList)) := by
    simp
  have front : ¬ word <:+: "RPC response error".toList := not_infix_of_not_mem (by decide)
  have number : ¬ word <:+: (toString code).toList ++ [':'] := by
    refine not_infix_of_not_mem ?_
    rw [List.mem_append, not_or]
    exact ⟨not_mem_toString code, by decide⟩
  have inside : word <:+: message.toList ++ [';'] ↔ word <:+: message.toList := by
    rw [Text.infix_separated_iff (by decide : ';' ∉ word), or_iff_left not_infix_nil]
  have tried : word <:+: ((preflight.map Preflight.text).getD "").toList ↔
      ∃ found ∈ preflight, ∃ line ∈ found.logs, word <:+: line.toList := by
    cases preflight with
    | none => exact iff_of_false not_infix_nil (by simp)
    | some found =>
      change word <:+: found.text.toList ↔ _
      rw [infix_preflight_iff]
      simp
  rw [isStale, Text.occurs_iff]
  change word <:+: ("RPC response error " ++ toString code ++ ": " ++ message ++ "; " ++ _).toList ↔ _
  rw [text, Text.infix_separated_iff blank_not_mem, or_iff_right front,
    Text.infix_separated_iff blank_not_mem, or_iff_right number,
    Text.infix_separated_iff blank_not_mem, inside, tried]

theorem isStale_blockhashNotFound : (transaction .blockhashNotFound).isStale = false := by decide

/-- The failure itself, whatever its words, is that the node does not know the blockhash. -/
def reportsStale : NodeError → Bool
  | .transaction .blockhashNotFound => true
  | .response _ _ (some found) => found.error = some .blockhashNotFound
  | _ => false

end NodeError

namespace Node

/-- A new attempt: a wait, a newly asked blockhash and, where there is one, the transaction with it. -/
inductive Renews (transaction : Block 32 → Transaction) : List Said → Prop
  | unknown (nanos : Nat) (e : NodeError) (rest : List Said) :
      Renews transaction (.waited nanos :: .asked .blockhash (.error e) :: rest)
  | sent (nanos : Nat) (hash : Block 32) (answer : Except NodeError Signature) (rest : List Said) :
      Renews transaction
        (.waited nanos :: .asked .blockhash (.ok hash) :: .asked (.send (transaction hash)) answer :: rest)

/-- A failed attempt is followed by a new one exactly if the failure is of this sort and, with so many retries
made before, there are retries left. -/
def RetriedIf (sort : NodeError → Bool) (p : RetryPolicy) (transaction : Block 32 → Transaction) (made : Nat)
    (log : List Said) : Prop :=
  ∀ before t e after, log = before ++ .asked (.send t) (.error e) :: after →
    (Renews transaction after ↔ sort e = true ∧ made + before.countP isSend < p.maxRetries)

variable {p : RetryPolicy} {transaction : Block 32 → Transaction} {made left : Nat} {delay : Delay} {log : List Said}
  {r : Except LedgerError Signature}

theorem not_renews_nil : ¬ Renews transaction [] := fun h => by cases h

/-- Every attempt begins with a newly asked blockhash, and sends the transaction with it. -/
theorem renews_of_goes (within : made ≤ p.maxRetries)
    (goes : (sendFrom p transaction made delay (left + 1)).run.Goes log r) (nanos : Nat) :
    Renews transaction (.waited nanos :: log) := by
  rcases (goes_attempt_iff within).1 goes with ends | ⟨f, rest, -, -, rfl, -⟩
  · cases ends with
    | unknown e => exact .unknown nanos e []
    | executed hash s => exact .sent nanos hash (.ok s) []
    | failed f last => exact .sent nanos f.hash (.error f.error) []
  · exact .sent nanos f.hash (.error f.error) (.waited delay.nanos :: rest)

/-- A failure stands at the end of its attempt. -/
theorem split_turns {f : Failure} {before after tail : List Said} {t : Transaction} {e : NodeError}
    (h : f.turns transaction ++ tail = before ++ .asked (.send t) (.error e) :: after) :
    (before = [.asked .blockhash (.ok f.hash)] ∧ e = f.error ∧ after = tail) ∨
      ∃ onward, before = f.turns transaction ++ onward ∧ tail = onward ++ .asked (.send t) (.error e) :: after := by
  rw [Failure.turns, List.cons_append, List.cons_append, List.nil_append] at h
  rcases before with _ | ⟨first, _ | ⟨second, onward⟩⟩
  · cases h
  · cases h
    exact .inl ⟨rfl, rfl, rfl⟩
  · obtain ⟨rfl, tails⟩ := List.cons.inj h
    obtain ⟨rfl, rest⟩ := List.cons.inj tails
    exact .inr ⟨onward, rfl, rest⟩

/-- The last attempt is not followed by another one. -/
theorem Ends.retriedIf (ends : Ends p transaction made log r) :
    RetriedIf NodeError.isStale p transaction made log := by
  rintro before t e after split
  cases ends with
  | unknown e' => rcases before with _ | ⟨first, _ | ⟨second, before⟩⟩ <;> cases split
  | executed hash s => rcases before with _ | ⟨first, _ | ⟨second, _ | ⟨third, before⟩⟩⟩ <;> cases split
  | failed f last =>
    rw [← List.append_nil (f.turns transaction)] at split
    rcases split_turns split with ⟨rfl, rfl, rfl⟩ | ⟨onward, -, rest⟩
    · refine iff_of_false not_renews_nil fun again => ?_
      have full := last (NodeError.isStale_iff.1 again.1)
      have spare : made < p.maxRetries := again.2
      omega
    · cases onward <;> cases rest

theorem retriedIf_sendFrom (left_eq : made + left = p.maxRetries)
    (goes : (sendFrom p transaction made delay (left + 1)).run.Goes log r) :
    RetriedIf NodeError.isStale p transaction made log := by
  induction left generalizing made delay log with
  | zero =>
    rcases (goes_attempt_iff (by omega)).1 goes with ends | ⟨f, rest, -, less, -⟩
    · exact ends.retriedIf
    · omega
  | succ left ih =>
    rcases (goes_attempt_iff (by omega)).1 goes with ends | ⟨f, rest, named, less, rfl, onward⟩
    · exact ends.retriedIf
    · rintro before t e after split
      rcases split_turns split with ⟨rfl, rfl, rfl⟩ | ⟨later, rfl, rest_eq⟩
      · exact iff_of_true (renews_of_goes (by omega) onward delay.nanos) ⟨NodeError.isStale_iff.2 named, less⟩
      · rcases later with _ | ⟨first, later⟩
        · cases rest_eq
        · obtain ⟨rfl, same⟩ := List.cons.inj rest_eq
          have counted :
              (f.turns transaction ++ .waited delay.nanos :: later).countP isSend = later.countP isSend + 1 := by
            simp [Failure.turns, isSend, List.countP_cons, Nat.add_comm]
          rw [counted, ih (by omega) onward later t e after same, Nat.add_right_comm, Nat.add_assoc]

theorem retriedIf_sendWithRetries {is : List Instruction} {signers : List Address}
    (goes : (sendWithRetries p is signers).run.Goes log r) :
    RetriedIf NodeError.isStale p (⟨is, signers, ·⟩) 0 log := by
  by_cases paid : signers = []
  · subst paid
    obtain ⟨rfl, -⟩ := Dialogue.goes_done_iff.1 goes
    rintro before t e after split
    cases before <;> cases split
  · rw [run_sendWithRetries paid] at goes
    exact retriedIf_sendFrom (Nat.zero_add _) goes

/-- A failed attempt is followed by a new one exactly if its words name the blockhash and retries are left. So
the failures that report an unknown blockhash are retried, and no others, as far as the words agree with the
report. They never do where the report is the whole error, and for a refusal they only do if the node's message
or its log has the name. -/
theorem retried_as_worded (p : RetryPolicy) (is : List Instruction) (signers : List Address) (log : List Said)
    (r : Except LedgerError Signature) (goes : (sendWithRetries p is signers).run.Goes log r) :
    RetriedIf NodeError.isStale p (⟨is, signers, ·⟩) 0 log ∧
    (RetriedIf NodeError.reportsStale p (⟨is, signers, ·⟩) 0 log ↔
      ∀ before t e after, log = before ++ .asked (.send t) (.error e) :: after →
        before.countP isSend < p.maxRetries → e.isStale = e.reportsStale) ∧
    (NodeError.transaction .blockhashNotFound).isStale = false ∧
    ∀ code message preflight, (NodeError.response code message preflight).isStale = true ↔
      NodeError.word <:+: message.toList ∨
        ∃ found ∈ preflight, ∃ line ∈ found.logs, NodeError.word <:+: line.toList := by
  have worded := retriedIf_sendWithRetries goes
  refine ⟨worded, ⟨fun reported => ?_, fun agree => ?_⟩, NodeError.isStale_blockhashNotFound,
    fun code message preflight => NodeError.isStale_response_iff⟩
  · intro before t e after split spare
    have both := (worded before t e after split).symm.trans (reported before t e after split)
    have left : 0 + before.countP isSend < p.maxRetries := by omega
    rw [Bool.eq_iff_iff]
    exact ⟨fun h => (both.1 ⟨h, left⟩).1, fun h => (both.2 ⟨h, left⟩).1⟩
  · intro before t e after split
    rw [worded before t e after split]
    refine and_congr_left fun left => ?_
    rw [agree before t e after split (by omega)]

end Node

namespace Recorded

open Document Node

/-- What a node answers to a transaction whose blockhash it does not know. -/
def refusal : Document := record [("code", integer (-32002)),
  ("message", text "Transaction simulation failed: Blockhash not found"),
  ("data", record [("err", text "BlockhashNotFound"), ("logs", array []), ("accounts", null),
    ("unitsConsumed", number 0), ("returnData", null)])]

def refused : NodeError :=
  .response (-32002) "Transaction simulation failed: Blockhash not found" (some ⟨some .blockhashNotFound, []⟩)

def wire : Remote.Wire := ⟨fun _ => "", fun _ => Block.zero 64⟩

/-- A server that tells a blockhash, refuses the transaction, and has a newer blockhash to tell. -/
def refusing : Remote.Link where
  server := ⟨"http://node", true,
    [hashResponse 0 (Block.zero 32), answer 1 ("error", refusal), hashResponse 2 fresh], []⟩
  nextId := 0
where
  answer (id : Nat) (said : String × Document) : Http.Response :=
    ⟨200, .document (record [("jsonrpc", text "2.0"), ("id", number id), said])⟩
  hashResponse (id : Nat) (hash : Block 32) : Http.Response :=
    answer id ("result", record [("context", record [("slot", number 1)]),
      ("value", record [("blockhash", text (Address.text hash)), ("lastValidBlockHeight", number 10)])])

def refusedLog : List Said :=
  [.asked .blockhash (.ok (Block.zero 32)), .asked (.send ⟨[], [Address.zero], Block.zero 32⟩) (.error refused)]

theorem goes_refused :
    (sendWithRetries .standard [] [Address.zero]).run.Goes refusedLog (.error (.node refused)) := by
  have unnamed : refused.isStale = false := by decide
  rw [run_sendWithRetries (by simp)]
  refine (goes_attempt_iff (Nat.zero_le _)).2 (.inl (.failed ⟨Block.zero 32, refused⟩ fun named => ?_))
  have stale := NodeError.isStale_iff.2 named
  rw [unnamed] at stale
  cases stale

/-- An answer that is an error. -/
def failure? : Except ε α → Option ε
  | .error e => some e
  | .ok _ => none

theorem eq_of_failure? {x : Except ε α} {e : ε} (h : failure? x = some e) : x = .error e := by
  cases x with
  | error e' => rw [Option.some.inj h]
  | ok a => cases h

theorem refused_worded :
    (sendWithRetries .standard [] [Address.zero]).run.Goes refusedLog (.error (.node refused)) ∧
    RetriedIf NodeError.isStale .standard (⟨[], [Address.zero], ·⟩) 0 refusedLog :=
  ⟨goes_refused, (retried_as_worded .standard [] [Address.zero] refusedLog _ goes_refused).1⟩

/-- The refusal reports an unknown blockhash, and the transaction is given up after two calls. -/
theorem refused_given_up :
    let sent := Remote.run wire (sendWithRetries .standard [] [Address.zero]) refusing
    sent.1 = .error (.node refused) ∧ sent.2.nextId = 2 ∧ refused.reportsStale = true ∧
    (sendWithRetries .standard [] [Address.zero]).run.Goes refusedLog (.error (.node refused)) ∧
    ¬ RetriedIf NodeError.reportsStale .standard (⟨[], [Address.zero], ·⟩) 0 refusedLog := by
  intro sent
  have calls : failure? sent.1 = some (.node refused) ∧ sent.2.nextId = 2 := by decide +kernel
  refine ⟨eq_of_failure? calls.1, calls.2, rfl, goes_refused, fun retried => ?_⟩
  have again := (retried [.asked .blockhash (.ok (Block.zero 32))] _ refused [] rfl).2 ⟨rfl, by decide⟩
  exact not_renews_nil again

end Recorded

end Randomness
