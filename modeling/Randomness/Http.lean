import Randomness.Document.Parser
import Randomness.Http.Reason

/-!
A server that answers from a script. What is posted to it is a document; its answers are a status and
a body.
-/

namespace Randomness.Http

inductive Body where
  | document (d : Document)
  | text (s : String)

/-- The document in a body. One that was sent as a document arrives as it is. -/
def Body.document? : Body → Option Document
  | document d => some d
  | text s => Document.parse? s

structure Response where
  status : Nat
  body : Body

namespace Response

def isSuccess (r : Response) : Bool := 200 ≤ r.status && r.status < 300

/-- The status tells that the request was at fault, or the server. -/
def isFailure (r : Response) : Bool := 400 ≤ r.status && r.status < 600

/-- What a server says that has nothing more to say. -/
def exhausted : Response := ⟨500, .text ""⟩

end Response

/-- How an exchange fails. -/
inductive Fault where
  /-- The answer's status is no success. -/
  | status (code : Nat)
  /-- The answer's body is no document of the expected form. -/
  | body
  /-- There is no answer. -/
  | transport
  deriving DecidableEq

namespace Fault

def message : Fault → String
  | status code => "status " ++ toString code
  | body => "decode"
  | transport => "transport"

/-- The fault in full, for an exchange with a server of this address. -/
def explanation (url : String) : Fault → String
  | status code =>
    "HTTP status " ++ (if code < 500 then "client" else "server") ++ " error (" ++ toString code ++ " " ++
      ((reason? code).getD "<unknown status code>") ++ ") for url (" ++ url ++ ")"
  | body => "error decoding response body"
  | transport => "error sending request for url (" ++ url ++ ")"

end Fault

structure Server where
  url : String
  /-- Whether a connection can be made at all. -/
  isReachable : Bool
  /-- The answers still to come. -/
  responses : List Response
  /-- What was posted, newest first. -/
  requests : List Document

namespace Server

/-- Posts a document. Nothing reaches a server without a connection, and nothing comes back. -/
def post (s : Server) (d : Document) : Option Response × Server :=
  if s.isReachable then
    (some (s.responses.headD .exhausted),
      { s with responses := s.responses.tail, requests := d :: s.requests })
  else (none, s)

theorem post_responses_le (s : Server) (d : Document) :
    (s.post d).2.responses.length ≤ s.responses.length := by
  unfold post
  split <;> simp

theorem post_responses_of_ne {s s' : Server} {d : Document} {r : Response}
    (h : s.post d = (some r, s')) (hr : r.status ≠ 500) : s'.responses.length < s.responses.length := by
  unfold post at h
  split at h
  · obtain ⟨hr', rfl⟩ := Prod.mk.injEq .. ▸ h
    cases hs : s.responses with
    | nil =>
      obtain rfl : Response.exhausted = r := by simpa [hs] using hr'
      exact absurd rfl hr
    | cons a as => simp
  · simp at h

end Server

end Randomness.Http
