import CloudAudit.Proofs.FirstPlaces
import CloudAudit.Scan.Matrix
import Mathlib.Data.List.Sort
import Mathlib.Data.String.Basic

set_option autoImplicit false

/- What the matrix of a scan covers: each account, region and service that is asked for
and not filtered out, once, in one order. Names repeated in a configuration, and the order
in which catalogs are given, do not show in it. -/
namespace CloudAudit

/-- What the patterns of a filter say of a name. -/
def NameFilter.Admits (f : NameFilter) (name : String) : Prop :=
  (f.includes = [] ∨ ∃ pattern ∈ f.includes, pattern name = true) ∧
    ∀ pattern ∈ f.excludes, pattern name = false

theorem NameFilter.allows_iff {f : NameFilter} {name : String} :
    f.allows name = true ↔ f.Admits name := by
  simp [allows, Admits]

namespace ScanConfig

section

variable {names : List String} {f : NameFilter}

theorem mem_distinctAllowed {name : String} :
    name ∈ distinctAllowed names f ↔ name ∈ names ∧ f.Admits name := by
  rw [distinctAllowed, List.mem_eraseDups, List.mem_filter, NameFilter.allows_iff]

theorem distinctAllowed_ascending (names : List String) (f : NameFilter) :
    (distinctAllowed names f).Pairwise fun a b => names.idxOf a < names.idxOf b := by
  refine (eraseDups_ascending (names.filter f.allows)).imp_of_mem fun {a b} first second => ?_
  have allowed : ∀ {name}, name ∈ (names.filter f.allows).eraseDups → f.allows name = true :=
    fun member => (List.mem_filter.mp (List.mem_eraseDups.mp member)).2
  exact (idxOf_filter_lt (allowed first) (allowed second) names).mp

theorem distinctAllowed_append {again : List String} (known : ∀ name ∈ again, name ∈ names) :
    distinctAllowed (names ++ again) f = distinctAllowed names f := by
  rw [distinctAllowed, List.filter_append]
  apply eraseDups_append_of_subset
  intro name member
  obtain ⟨repeated, allowed⟩ := List.mem_filter.mp member
  exact List.mem_filter.mpr ⟨known name repeated, allowed⟩

end

variable (c : ScanConfig) {catalogs others : List Catalog}

theorem selects_iff {service : String} :
    c.selects service = true ↔
      (c.services = [] ∨ service ∈ c.services) ∧ service ∉ c.excludeServices := by
  simp [selects]

theorem mem_selected {k : Catalog} :
    k ∈ c.selected catalogs ↔ k ∈ catalogs ∧ c.selects k.service = true := by
  rw [selected, List.mem_mergeSort, List.mem_filter]

/-- Catalogs of services that do not repeat come in strictly ascending order. -/
theorem selected_ascending (distinct : (catalogs.map (·.service)).Nodup) :
    (c.selected catalogs).Pairwise fun a b => a.service < b.service := by
  have sorted : (c.selected catalogs).Pairwise fun a b => decide (a.service ≤ b.service) = true :=
    List.pairwise_mergeSort (fun a b d first second => by
      simp only [decide_eq_true_eq] at first second ⊢
      exact le_trans first second) (fun a b => by
      simpa using le_total a.service b.service) _
  have apart : (c.selected catalogs).Pairwise fun a b => a.service ≠ b.service := by
    have kept := (List.pairwise_map.mp distinct).filter fun k => c.selects k.service
    exact (List.mergeSort_perm _ _).symm.pairwise kept fun different same => different same.symm
  exact (sorted.and apart).imp fun both => lt_of_le_of_ne (of_decide_eq_true both.1) both.2

/-- The order in which catalogs are given does not show. -/
theorem selected_perm (perm : others.Perm catalogs)
    (distinct : (catalogs.map (·.service)).Nodup) : c.selected others = c.selected catalogs := by
  have apart : (others.map (·.service)).Nodup := (perm.map (·.service)).nodup_iff.mpr distinct
  have sorted : ∀ l : List Catalog, (c.selected l).Perm (l.filter fun k => c.selects k.service) :=
    fun l => List.mergeSort_perm _ _
  have same : (c.selected others).Perm (c.selected catalogs) :=
    (sorted others).trans ((perm.filter _).trans (sorted catalogs).symm)
  refine same.eq_of_pairwise (fun a b _ _ below above => ?_) (c.selected_ascending apart)
    (c.selected_ascending distinct)
  exact absurd below (lt_asymm above)

/-- Whether a region is one of those of a catalog. -/
def HasRegion (k : Catalog) (region : String) : Prop :=
  if k.isGlobal then region = ScanUnit.globalRegion
  else region ∈ c.regions ∧ c.regionFilter.Admits region

theorem mem_regionsOf {k : Catalog} {region : String} :
    region ∈ c.regionsOf k ↔ c.HasRegion k region := by
  unfold regionsOf HasRegion
  split
  · exact List.mem_singleton
  · exact mem_distinctAllowed

theorem regionsOf_ascending (k : Catalog) :
    (c.regionsOf k).Pairwise fun a b => c.regions.idxOf a < c.regions.idxOf b := by
  unfold regionsOf
  split
  · exact List.pairwise_singleton _ _
  · exact distinctAllowed_ascending c.regions c.regionFilter

/-- What a scan asks for: an account and a service, in a region of the catalog of the service. -/
structure Wants (catalogs : List Catalog) (unit : ScanUnit) : Prop where
  account : unit.account ∈ c.accounts
  account_admitted : c.accountFilter.Admits unit.account
  service : c.services = [] ∨ unit.service ∈ c.services
  service_kept : unit.service ∉ c.excludeServices
  region : ∃ k ∈ catalogs, k.service = unit.service ∧ c.HasRegion k unit.region

/-- Whether a unit comes before another: by the first place of its account in the
configuration, then by its service, then by the first place of its region. -/
def Before (u v : ScanUnit) : Prop :=
  c.accounts.idxOf u.account < c.accounts.idxOf v.account ∨
    u.account = v.account ∧ (u.service < v.service ∨
      u.service = v.service ∧ c.regions.idxOf u.region < c.regions.idxOf v.region)

theorem Before.ne {u v : ScanUnit} (before : c.Before u v) : u ≠ v := by
  rintro rfl
  rcases before with earlier | ⟨_, below | ⟨_, earlier⟩⟩
  · exact Nat.lt_irrefl _ earlier
  · exact lt_irrefl _ below
  · exact Nat.lt_irrefl _ earlier

theorem mem_matrix {u : PlannedUnit} :
    u ∈ c.matrix catalogs ↔
      (u.unit.account ∈ c.accounts ∧ c.accountFilter.Admits u.unit.account) ∧
      (u.catalog ∈ catalogs ∧ c.selects u.catalog.service = true) ∧
      c.HasRegion u.catalog u.unit.region ∧ u.unit.service = u.catalog.service := by
  simp only [matrix, List.mem_flatMap, List.mem_map, mem_distinctAllowed, mem_selected,
    mem_regionsOf]
  constructor
  · rintro ⟨account, asked, k, chosen, region, within, rfl⟩
    exact ⟨asked, chosen, within, rfl⟩
  · obtain ⟨⟨account, region, service⟩, k⟩ := u
    rintro ⟨asked, chosen, within, same⟩
    obtain rfl : service = k.service := same
    exact ⟨account, asked, k, chosen, region, within, rfl⟩

theorem mem_matrix_units {unit : ScanUnit} :
    unit ∈ (c.matrix catalogs).map (·.unit) ↔ c.Wants catalogs unit := by
  rw [List.mem_map]
  constructor
  · rintro ⟨u, listed, rfl⟩
    obtain ⟨⟨account, admitted⟩, ⟨known, chosen⟩, within, same⟩ := c.mem_matrix.mp listed
    rw [← same, selects_iff] at chosen
    exact ⟨account, admitted, chosen.1, chosen.2, u.catalog, known, same.symm, within⟩
  · rintro ⟨account, admitted, asked, kept, k, known, same, within⟩
    have chosen : c.selects k.service = true := by
      rw [same, selects_iff]
      exact ⟨asked, kept⟩
    exact ⟨⟨unit, k⟩, c.mem_matrix.mpr ⟨⟨account, admitted⟩, ⟨known, chosen⟩, within, same.symm⟩,
      rfl⟩

theorem matrix_ascending (distinct : (catalogs.map (·.service)).Nodup) :
    ((c.matrix catalogs).map (·.unit)).Pairwise c.Before := by
  rw [List.pairwise_map, matrix, List.pairwise_flatMap]
  constructor
  · intro account _
    rw [List.pairwise_flatMap]
    constructor
    · intro k _
      rw [List.pairwise_map]
      exact (c.regionsOf_ascending k).imp fun earlier => .inr ⟨rfl, .inr ⟨rfl, earlier⟩⟩
    · refine (c.selected_ascending distinct).imp fun {a b} below u first v second => ?_
      obtain ⟨_, _, rfl⟩ := List.mem_map.mp first
      obtain ⟨_, _, rfl⟩ := List.mem_map.mp second
      exact .inr ⟨rfl, .inl below⟩
  · refine (distinctAllowed_ascending c.accounts c.accountFilter).imp
      fun {a b} earlier u first v second => ?_
    obtain ⟨_, _, first⟩ := List.mem_flatMap.mp first
    obtain ⟨_, _, second⟩ := List.mem_flatMap.mp second
    obtain ⟨_, _, rfl⟩ := List.mem_map.mp first
    obtain ⟨_, _, rfl⟩ := List.mem_map.mp second
    exact .inl earlier

/-- A list of units is what a scan asks for: all that it wants, each once and in order, and
each with the catalog of its service. -/
structure Covers (catalogs : List Catalog) (units : List PlannedUnit) : Prop where
  distinct : (units.map (·.unit)).Nodup
  listed : ∀ unit, unit ∈ units.map (·.unit) ↔ c.Wants catalogs unit
  ordered : (units.map (·.unit)).Pairwise c.Before
  carries : ∀ u ∈ units, u.catalog ∈ catalogs ∧ u.catalog.service = u.unit.service

/-- The matrix of catalogs whose services differ covers what the scan asks for. Accounts and
regions that are named again, and another order of the catalogs, leave it as it is. -/
theorem matrix_covers (distinct : (catalogs.map (·.service)).Nodup) :
    c.Covers catalogs (c.matrix catalogs) ∧
    (∀ accounts regions : List String, (∀ a ∈ accounts, a ∈ c.accounts) →
      (∀ r ∈ regions, r ∈ c.regions) →
      ({ c with accounts := c.accounts ++ accounts, regions := c.regions ++ regions }
        : ScanConfig).matrix catalogs = c.matrix catalogs) ∧
    ∀ others : List Catalog, others.Perm catalogs → c.matrix others = c.matrix catalogs := by
  refine ⟨⟨?_, fun unit => c.mem_matrix_units, c.matrix_ascending distinct, ?_⟩, ?_, ?_⟩
  · exact (c.matrix_ascending distinct).imp (Before.ne c)
  · intro u listed
    obtain ⟨_, ⟨known, _⟩, _, same⟩ := c.mem_matrix.mp listed
    exact ⟨known, same.symm⟩
  · intro accounts regions accounts_known regions_known
    simp only [matrix, regionsOf, selected, distinctAllowed_append accounts_known,
      distinctAllowed_append regions_known]
    rfl
  · intro others perm
    simp only [matrix, c.selected_perm perm distinct]

/-- A catalog that says no more than what it is for. -/
def coverageOnly (service : String) (coverage : Coverage) : Catalog :=
  { provider := "north", service, coverage, version := none, discoveries := [], checks := [],
    plan := ⟨[]⟩ }

/-- A regional service, a global one and one that is not audited. -/
def threeServices : List Catalog :=
  [coverageOnly "storage" .regional, coverageOnly "quotas" .regional, coverageOnly "identity" .global]

/-- Names that start with a `t` are of accounts for tests. -/
def quarterly : ScanConfig :=
  { accounts := ["prod", "main", "prod", "test"],
    accountFilter :=
      { excludes := [(Pattern.Regex.seq (.look .textStart) (.chars (.single 't'))).isFoundIn] },
    regions := ["west", "east", "west"], excludeServices := ["quotas"], workers := 2 }

/-- The account of tests is left out, the global service has one unit for each account, and
neither a second mention nor another order of the catalogs adds anything. -/
theorem quarterly_covers :
    (threeServices.map (·.service)).Nodup ∧ quarterly.Covers threeServices
      (quarterly.matrix threeServices) ∧
    (quarterly.matrix threeServices).map (·.unit) =
      [⟨"prod", "global", "identity"⟩, ⟨"prod", "west", "storage"⟩, ⟨"prod", "east", "storage"⟩,
        ⟨"main", "global", "identity"⟩, ⟨"main", "west", "storage"⟩, ⟨"main", "east", "storage"⟩] ∧
    ({ quarterly with
        accounts := quarterly.accounts ++ ["main"], regions := quarterly.regions ++ ["east"] }
      : ScanConfig).matrix threeServices = quarterly.matrix threeServices ∧
    quarterly.matrix threeServices.reverse = quarterly.matrix threeServices := by
  have distinct : (threeServices.map (·.service)).Nodup := by decide
  have chosen : quarterly.selected threeServices =
      [coverageOnly "identity" .global, coverageOnly "storage" .regional] := by
    simp [selected, selects, quarterly, threeServices, coverageOnly, List.mergeSort]
  obtain ⟨covers, again, order⟩ := quarterly.matrix_covers distinct
  refine ⟨distinct, covers, ?_, again _ _ (by decide) (by decide), order _ (List.reverse_perm _)⟩
  rw [matrix, chosen]
  decide +kernel

end ScanConfig

end CloudAudit
