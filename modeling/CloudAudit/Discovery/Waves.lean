import CloudAudit.Discovery.Run

/-!
Running all discoveries of a catalog, wave by wave. Members of a wave may run on several workers;
what they see are the results of earlier waves only. What waits on a failed discovery is skipped.
-/

namespace CloudAudit

/-- Discoveries that must not run, with the failure that stops each. -/
abbrev Blocked := List (String × Reason)

namespace Blocked

/-- Blocks an id, unless it is blocked already. -/
def insertNew (b : Blocked) (id : String) (reason : Reason) : Blocked :=
  if (b.lookup id).isSome then b else b ++ [(id, reason)]

end Blocked

/-- Results so far and what they block. -/
structure Progress where
  cache : Cache := []
  blocked : Blocked := []
  deriving Inhabited

namespace Progress

/-- Takes in one result; a failure blocks everything that waits on it. -/
def add (c : Catalog) (p : Progress) (r : DiscoveryResult) : Progress :=
  let blocked :=
    if r.status = .failed then
      (c.dependentsOf r.discoveryId).foldl
        (fun b id => b.insertNew id (.upstreamFailed r.discoveryId)) p.blocked
    else p.blocked
  { cache := p.cache.insert r.discoveryId r, blocked }

end Progress

namespace Catalog

/-- One member of a wave. -/
def runOne (u : UnitContext) (p : Progress) (d : Discovery) : Program DiscoveryResult :=
  match p.blocked.lookup d.id with
  | some reason => .done (.skip d.id reason)
  | none => d.run u p.cache

/-- Members of a wave one after the other. -/
def runMembers (u : UnitContext) (c : Catalog) (p : Progress) :
    List String → Program (List DiscoveryResult)
  | [] => .done []
  | id :: rest =>
    match c.discovery? id with
    | none => runMembers u c p rest
    | some d => do
      let r ← runOne u p d
      let rs ← runMembers u c p rest
      .done (r :: rs)

/-- Pieces of a list, each of `size` elements but for the last. -/
def chunks {α : Type} (size : Nat) : Nat → List α → List (List α)
  | 0, _ => []
  | _ + 1, [] => []
  | fuel + 1, a :: rest =>
    (a :: rest).take size :: chunks size fuel ((a :: rest).drop size)

/-- Shares of a wave for a number of workers. -/
def shares (parallelism : Nat) (wave : List String) : List (List String) :=
  chunks ((wave.length + parallelism - 1) / parallelism) wave.length wave

/-- Results of a share whose worker crashed. -/
def lostShare (share : List String) : List DiscoveryResult :=
  share.map fun id => .lost id "discovery worker panicked"

/-- Whether a wave is shared among workers. -/
def isShared (parallelism : Nat) (wave : List String) : Bool :=
  decide (1 < parallelism) && decide (1 < wave.length)

variable {σ : Type}

/-- Shares one after the other, a crash losing only its own share. -/
def runShares (client : Client σ) (u : UnitContext) (c : Catalog) (p : Progress) :
    List (List String) → Session σ → List DiscoveryResult × Session σ
  | [], s => ([], s)
  | share :: rest, s =>
    let (result, s) := (runMembers u c p share).run client s
    let (more, s) := runShares client u c p rest s
    (result.getD (lostShare share) ++ more, s)

/-- One wave; without workers of its own a crash ends the unit. -/
def runWave (client : Client σ) (u : UnitContext) (c : Catalog) (parallelism : Nat) (p : Progress)
    (wave : List String) (s : Session σ) : Option (List DiscoveryResult) × Session σ :=
  if isShared parallelism wave then
    let (results, s) := runShares client u c p (shares parallelism wave) s
    (some results, s)
  else (runMembers u c p wave).run client s

/-- Waves in order, from the results so far. -/
def runWaves (client : Client σ) (u : UnitContext) (c : Catalog) (parallelism : Nat) :
    List (List String) → Progress → Session σ → Option Progress × Session σ
  | [], p, s => (some p, s)
  | wave :: rest, p, s =>
    match runWave client u c parallelism p wave s with
    | (none, s) => (none, s)
    | (some results, s) => runWaves client u c parallelism rest (results.foldl (Progress.add c) p) s

/-- Results of all discoveries of a catalog; none when a crash ends the unit. -/
def discover (client : Client σ) (u : UnitContext) (c : Catalog) (parallelism : Nat)
    (s : Session σ) : Option Cache × Session σ :=
  let (p, s) := runWaves client u c parallelism c.plan.waves {} s
  (p.map (·.cache), s)

end Catalog

end CloudAudit
