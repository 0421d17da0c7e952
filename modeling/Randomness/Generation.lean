import Randomness.Text

/-!
The two generations of the coordinator's protocol.
-/

namespace Randomness

inductive Generation where
  /-- A flat fee per request, paid to a treasury; requests are consumed and closed by their owner. -/
  | legacy
  /-- Prepaid subscriptions; a request is fulfilled, delivered and closed at once. -/
  | subscription
  deriving DecidableEq

namespace Generation

def name : Generation → String
  | .legacy => "legacy"
  | .subscription => "subscription"

/-- A name without regard to ASCII case and surrounding blanks; what is refused is returned in the
form that was compared. -/
def parse (s : String) : Except String Generation :=
  let n := String.ofList ((Text.trim s.toList).map Char.toLower)
  if n = "legacy" then .ok .legacy
  else if n = "subscription" then .ok .subscription
  else .error n

def refusal (n : String) : String :=
  "unknown protocol generation `" ++ n ++ "` (expected `legacy` or `subscription`)"

end Generation

end Randomness
