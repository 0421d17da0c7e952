import Randomness.Index

/-!
Steps of a client on an index whose contents change while the client waits.
-/

namespace Randomness.Simulation

/-- What an index answers, whatever the owner. -/
abbrev IndexContents := Except LedgerError (List IndexEntry)

inductive IndexStep where
  | fetchAll (owner : Address)
  | fetchPending
  | find (id : UInt64)
  | wait (id : UInt64) (timeout interval : Nat) (ahead : List (Nat × IndexContents))

inductive IndexResult where
  | requests (rs : List IndexedRequest)
  | request (r : Option IndexedRequest)

structure IndexReport where
  result : Except ClientError IndexResult
  /-- The owners that were asked for. -/
  queries : List Address

/-- The step's conversation. -/
def IndexStep.dialogue (s : IndexStep) (program : Address) : IndexM IndexResult := do
  match s with
  | fetchAll owner => return .requests (← Index.fetchAll owner)
  | fetchPending => return .requests (← Index.fetchPending program)
  | find id => return .request (← Index.find program id)
  | wait id timeout interval _ => return .request (some (← Index.wait program id timeout interval))

def IndexStep.ahead : IndexStep → List (Nat × IndexContents)
  | wait _ _ _ ahead => ahead
  | _ => []

/-- The index at a time, with the changes that are still to come. -/
structure IndexTimeline where
  contents : IndexContents
  now : Nat
  ahead : List (Nat × IndexContents)
  /-- Newest first. -/
  queries : List Address

namespace IndexTimeline

/-- Makes the changes up to a time. -/
def changesUpTo (time : Nat) : List (Nat × IndexContents) → IndexContents → IndexContents × List (Nat × IndexContents)
  | [], c => (c, [])
  | (t, c') :: rest, c => if t ≤ time then changesUpTo time rest c' else (c, (t, c') :: rest)

def pass (ms : Nat) : StateM IndexTimeline Unit := modify fun t =>
  let (contents, ahead) := changesUpTo (t.now + ms) t.ahead t.contents
  { t with contents, ahead, now := t.now + ms }

def answer (owner : Address) : StateM IndexTimeline (IndexAnswer owner) :=
  modifyGet fun t => (t.contents, { t with queries := owner :: t.queries })

/-- The contents when all changes are made. -/
def settled (t : IndexTimeline) : IndexContents := t.ahead.foldl (fun _ c => c.2) t.contents

end IndexTimeline

def runIndex (program : Address) : IndexContents → List IndexStep → List IndexReport
  | _, [] => []
  | contents, s :: ss =>
    let conversation := (s.dialogue program).run.run IndexTimeline.answer IndexTimeline.pass
    let (result, t) := (do IndexTimeline.pass 0; conversation).run ⟨contents, 0, s.ahead, []⟩
    ⟨result, t.queries.reverse⟩ :: runIndex program t.settled ss

end Randomness.Simulation
