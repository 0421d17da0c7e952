import Randomness.Proofs.Entries

/-!
What a response of an index gives the one who called: a result, an error, or neither, whatever else stands in it.
-/

namespace Randomness.Index.Remote

open Document Http

/-! ## Replies -/

/-- The status tells that the request was at fault, or the server. -/
def Fails (r : Response) : Prop := 400 ≤ r.status ∧ r.status < 600

/-- A response has these members as its reply: its status tells no failure, and its body is a record. -/
def Replies (r : Response) (result error : Option Document) : Prop :=
  ¬ Fails r ∧ ∃ d m, r.body.document? = some d ∧ d.record? ["result", "error"] = some m ∧
    m "result" = result ∧ m "error" = error

/-- What a response gives the call of a method whose results have a form. An error counts even beside a result. -/
inductive Gives (method : String) (form : Document → α → Prop) (r : Response) : Except LedgerError α → Prop
  | status (failure : Fails r) : Gives method form r (.error (.http (.status r.status)))
  | garbled (success : ¬ Fails r) (unread : ∀ result error a f, Replies r result error →
      Tells form result a → ¬ Tells Fault.Shown error f) : Gives method form r (.error (.http .body))
  | fault {result error : Option Document} {a : Option α} {f : Fault} (reply : Replies r result error)
      (beside : Tells form result a) (told : Tells Fault.Shown error (some f)) :
      Gives method form r (.error (.indexer f.code f.message))
  | nothing {result error : Option Document} (reply : Replies r result error) (empty : Tells form result none)
      (silent : Tells Fault.Shown error none) :
      Gives method form r (.error (.custom (method ++ " returned null result without error")))
  | value {result error : Option Document} {a : α} (reply : Replies r result error)
      (told : Tells form result (some a)) (silent : Tells Fault.Shown error none) : Gives method form r (.ok a)

/-- The server after documents were posted to it, with the responses that are left. -/
def served (s : Server) (posted : List Document) (rest : List Response) : Server :=
  { s with responses := rest, requests := posted.reverse ++ s.requests }

section

variable {method : String} {read : Document → Option α} {form : Document → α → Prop} {r : Response}

theorem not_fails (success : r.status = 200) : ¬ Fails r := by
  rw [Fails, success]
  omega

theorem isFailure_iff : r.isFailure = true ↔ Fails r := by
  simp [Response.isFailure, Fails]

theorem replyOf_eq_ok {d : Document} {reply : Reply α} (success : ¬ Fails r)
    (body : r.body.document? = some d) (told : Reply.read? read d = some reply) : replyOf read r = .ok reply := by
  rw [replyOf, if_neg (mt isFailure_iff.1 success), body]
  simp only [Option.bind_eq_bind, Option.bind_some, told]

theorem replyOf_failure (failure : Fails r) : replyOf read r = .error (.http (.status r.status)) := by
  rw [replyOf, if_pos (isFailure_iff.2 failure)]

theorem replyOf_garbled (success : ¬ Fails r) (unread : ∀ reply, replyOf read r ≠ .ok reply) :
    replyOf read r = .error (.http .body) := by
  unfold replyOf at unread ⊢
  rw [if_neg (mt isFailure_iff.1 success)] at unread ⊢
  split
  · rfl
  · next reply found =>
    rw [found] at unread
    exact absurd rfl (unread reply)

variable (reads : ∀ {d a}, read d = some a ↔ form d a)

include reads

theorem Reply.read?_eq_some_iff {d : Document} {reply : Reply α} : Reply.read? read d = some reply ↔
    ∃ m, d.record? ["result", "error"] = some m ∧ Tells form (m "result") reply.result ∧
      Tells Fault.Shown (m "error") reply.error := by
  simp only [Reply.read?, Option.bind_eq_bind, Option.bind_eq_some_iff, optional_eq_some_iff reads,
    optional_eq_some_iff Fault.read?_eq_some_iff]
  constructor
  · intro h
    obtain ⟨m, members, result, told, error, silent, made⟩ := h
    cases made
    exact ⟨m, members, told, silent⟩
  · intro h
    obtain ⟨m, members, told, silent⟩ := h
    exact ⟨m, members, _, told, _, silent, rfl⟩

theorem replyOf_eq_ok_iff {reply : Reply α} : replyOf read r = .ok reply ↔
    ∃ result error, Replies r result error ∧ Tells form result reply.result ∧
      Tells Fault.Shown error reply.error := by
  constructor
  · intro h
    unfold replyOf at h
    split at h
    · cases h
    · next success =>
      split at h
      · cases h
      · next told found =>
        cases h
        obtain ⟨d, body, found⟩ := Option.bind_eq_some_iff.1 found
        obtain ⟨m, members, told, silent⟩ := (Reply.read?_eq_some_iff reads).1 found
        exact ⟨_, _, ⟨mt isFailure_iff.2 success, d, m, body, members, rfl, rfl⟩, told, silent⟩
  · intro h
    obtain ⟨_, _, ⟨success, d, m, body, members, rfl, rfl⟩, told, silent⟩ := h
    exact replyOf_eq_ok success body ((Reply.read?_eq_some_iff reads).2 ⟨m, members, told, silent⟩)

/-- What a call makes of a reply. -/
theorem replied {result error : Option Document} {a : Option α} {f : Option Fault} (reply : Replies r result error)
    (told : Tells form result a) (silent : Tells Fault.Shown error f) :
    (replyOf read r >>= Reply.value method) = Reply.value method ⟨a, f⟩ := by
  have whole : replyOf read r = .ok ⟨a, f⟩ := (replyOf_eq_ok_iff reads).2 ⟨result, error, reply, told, silent⟩
  rw [whole]
  rfl

/-- Every response gives one thing. -/
theorem gives_iff {out : Except LedgerError α} :
    Gives method form r out ↔ (replyOf read r >>= Reply.value method) = out := by
  constructor
  · intro h
    cases h with
    | status failure => rw [replyOf_failure failure]; rfl
    | garbled success unread =>
      have none (reply : Reply α) : replyOf read r ≠ .ok reply := by
        intro told
        obtain ⟨result, error, reply, told, silent⟩ := (replyOf_eq_ok_iff reads).1 told
        exact unread _ _ _ _ reply told silent
      rw [replyOf_garbled success none]
      rfl
    | fault reply beside told => exact replied reads reply beside told
    | nothing reply empty silent => exact replied reads reply empty silent
    | value reply told silent => exact replied reads reply told silent
  · rintro rfl
    by_cases failure : Fails r
    · rw [replyOf_failure failure]
      exact .status failure
    · cases told : replyOf read r with
      | error e =>
        have none (reply : Reply α) : replyOf read r ≠ .ok reply := told ▸ nofun
        obtain rfl : .http .body = e := Except.error.inj ((replyOf_garbled failure none).symm.trans told)
        refine .garbled failure fun result error a f reply told silent => ?_
        exact none ⟨a, f⟩ ((replyOf_eq_ok_iff reads).2 ⟨_, _, reply, told, silent⟩)
      | ok reply =>
        obtain ⟨result, error, replies, told, silent⟩ := (replyOf_eq_ok_iff reads).1 told
        obtain ⟨a, f⟩ := reply
        cases f with
        | some f => exact .fault replies told silent
        | none =>
          cases a with
          | none => exact .nothing replies told silent
          | some a => exact .value replies told silent

/-- A call posts its request, takes the next response, and answers what that gives. -/
theorem call_of_gives {params : Document} {s : Server} {out : Except LedgerError α} (reachable : s.isReachable)
    (given : Gives method form (s.responses.headD .exhausted) out) :
    call method params read s = (out, served s [request method params] s.responses.tail) := by
  rw [call, Server.post, if_pos reachable]
  exact congrArg (·, _) ((gives_iff reads).1 given)

end

/-! ## Pages -/

/-- What a response gives a request for a page. -/
abbrev GivesPage (r : Response) : Except LedgerError Page → Prop := Gives "getCompressedAccountsByOwner" Page.Within r

/-- A response has a page as its result. -/
def Answers (r : Response) (p : Page) : Prop := GivesPage r (.ok p)

/-- What is posted for the page at a cursor: the owner, the cursor, which is null for the first page, and how many
items there may be. -/
def asking (owner : Address) (cursor : Option String) : Document :=
  record [("jsonrpc", text "2.0"), ("id", text "1"), ("method", text "getCompressedAccountsByOwner"),
    ("params", record [("owner", text owner.text), ("cursor", cursor.elim null text), ("limit", number 1000)])]

theorem request_pageParams (owner : Address) (cursor : Option String) :
    request "getCompressedAccountsByOwner" (pageParams owner cursor) = asking owner cursor := by
  cases cursor <;> rfl

/-- Asking for a page posts one request, and answers what the next response gives. -/
theorem page_of_gives {owner : Address} {cursor : Option String} {s : Server} {out : Except LedgerError Page}
    (reachable : s.isReachable) (given : GivesPage (s.responses.headD .exhausted) out) :
    page owner cursor s = (out, served s [asking owner cursor] s.responses.tail) := by
  rw [page, call_of_gives inResult?_eq_some_iff reachable given, request_pageParams]

theorem exists_gives (r : Response) : ∃ out, GivesPage r out :=
  ⟨_, (gives_iff inResult?_eq_some_iff).2 rfl⟩

end Randomness.Index.Remote
