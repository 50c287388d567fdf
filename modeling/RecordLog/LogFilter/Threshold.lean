import RecordLog.Journal
import RecordLog.Text.Decimal

/-! The least important level of events that are written. -/
namespace RecordLog

/-- `none` passes nothing. -/
structure Threshold where
  least : Option Level
  deriving DecidableEq, Repr

namespace Threshold

def passes (t : Threshold) (l : Level) : Bool := t.least.any (l.rank ≤ ·.rank)

def everything : Threshold := ⟨some .trace⟩

/-- Names in any case, and their numbers from zero, which passes nothing, to five. -/
def names : List (String × Threshold) :=
  [("off", ⟨none⟩), ("error", ⟨some .error⟩), ("warn", ⟨some .warn⟩), ("info", ⟨some .info⟩),
   ("debug", ⟨some .debug⟩), ("trace", ⟨some .trace⟩)]

/-- A number may have a plus sign and zeros in front. -/
def parse? (text : String) : Option Threshold :=
  let digits := match text.toList with
    | '+' :: cs => cs
    | cs => cs
  match Decimal.read? digits with
  | some n => names[n]?.map (·.2)
  | none => names.lookup text.toLower

end Threshold

end RecordLog
