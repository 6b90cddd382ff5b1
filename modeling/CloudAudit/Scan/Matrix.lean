import CloudAudit.Catalog.Basic
import CloudAudit.Filter
import CloudAudit.Report.Unit
import CloudAudit.Retry

/-!
What a scan covers: the accounts, regions and services that are asked for, and the units they give.
-/

namespace CloudAudit

structure ScanConfig where
  accounts : List String := []
  accountFilter : NameFilter := {}
  regions : List String := []
  regionFilter : NameFilter := {}
  /-- Services asked for; none at all means every service. -/
  services : List String := []
  excludeServices : List String := []
  workers : Nat
  /-- How many discoveries of one unit may run at a time. -/
  parallelism : Nat := 1
  retry : RetryConfig := .standard

/-- A unit with the catalog of its service. -/
structure PlannedUnit where
  unit : ScanUnit
  catalog : Catalog
  deriving Inhabited

namespace ScanConfig

/-- Names that a filter allows, each once, in order of first appearance. -/
def distinctAllowed (names : List String) (f : NameFilter) : List String :=
  (names.filter f.allows).eraseDups

/-- Whether a service is asked for and not excluded. -/
def selects (c : ScanConfig) (service : String) : Bool :=
  (c.services.isEmpty || c.services.contains service) && !c.excludeServices.contains service

/-- Catalogs of selected services in ascending order of services. -/
def selected (c : ScanConfig) (catalogs : List Catalog) : List Catalog :=
  (catalogs.filter fun k => c.selects k.service).mergeSort fun a b => decide (a.service ≤ b.service)

/-- Regions of a catalog: a global service has a single one. -/
def regionsOf (c : ScanConfig) (k : Catalog) : List String :=
  if k.isGlobal then [ScanUnit.globalRegion] else distinctAllowed c.regions c.regionFilter

/-- Units by account, then by service, then by region. -/
def matrix (c : ScanConfig) (catalogs : List Catalog) : List PlannedUnit :=
  (distinctAllowed c.accounts c.accountFilter).flatMap fun account =>
    (c.selected catalogs).flatMap fun k =>
      (c.regionsOf k).map fun region => ⟨⟨account, region, k.service⟩, k⟩

end ScanConfig

end CloudAudit
