/-!
Lengths of time as text.
-/

namespace Randomness

/-- Milliseconds in the largest unit that leaves a whole part, without trailing zeros: `0ns`,
`50ms`, `1.5s`, `90.05s`. -/
def durationText (ms : Nat) : String :=
  if ms = 0 then "0ns"
  else if ms < 1000 then toString ms ++ "ms"
  else
    let r := ms % 1000
    let fraction :=
      if r = 0 then ""
      else if r % 100 = 0 then "." ++ toString (r / 100)
      else if r % 10 = 0 then "." ++ pad 2 (r / 10)
      else "." ++ pad 3 r
    toString (ms / 1000) ++ fraction ++ "s"
where
  pad (w n : Nat) : String :=
    let s := toString n
    String.ofList (List.replicate (w - s.length) '0') ++ s

end Randomness
