import CloudAudit.Program

/-!
Repeating calls that fail in passing, with growing delays in between. Durations are nanoseconds.
-/

namespace CloudAudit

-- Powers are core's, also where an algebra library is imported.
attribute [local instance (high)] instPowNat

namespace Duration

/-- The longest duration: `2 ^ 64 - 1` seconds and all but one nanosecond of another. -/
def greatest : Nat := (2 ^ (64 : Nat) - 1) * 10 ^ (9 : Nat) + (10 ^ (9 : Nat) - 1)

def ofMillis (n : Nat) : Nat := n * 10 ^ (6 : Nat)

def ofSeconds (n : Nat) : Nat := n * 10 ^ (9 : Nat)

/-- Product that stops at the longest duration. -/
def scale (d factor : Nat) : Nat := min (d * factor) greatest

/-- Seconds, a point and nine digits. -/
def render (d : Nat) : String :=
  let digits := toString (d % 10 ^ (9 : Nat))
  toString (d / 10 ^ (9 : Nat)) ++ "." ++
    String.ofList (List.replicate (9 - digits.length) '0') ++ digits

end Duration

structure RetryConfig where
  /-- Attempts in all; none at all means one. -/
  maxAttempts : Nat
  baseDelay : Nat
  maxDelay : Nat
  deriving DecidableEq, Repr, Inhabited

namespace RetryConfig

def standard : RetryConfig := ⟨4, Duration.ofMillis 250, Duration.ofSeconds 5⟩

/-- No delay between attempts. -/
def immediate (maxAttempts : Nat) : RetryConfig := ⟨maxAttempts, 0, 0⟩

/-- Greatest factor of a delay. -/
def maxFactor : Nat := 2 ^ (32 : Nat) - 1

/-- `2 ^ n`, but no more than the greatest factor. -/
def factor (n : Nat) : Nat := if n < 32 then 2 ^ n else maxFactor

/-- Delay before a retry, counted from one: it doubles each time up to the greatest delay. -/
def delay (c : RetryConfig) (retry : Nat) : Nat :=
  min (Duration.scale c.baseDelay (factor (retry - 1))) c.maxDelay

end RetryConfig

namespace Program

/-- Makes a call and repeats it up to `retries` times while it fails in passing. -/
def askUpTo (c : VendorCall) : Nat → Program Answer
  | 0 => .ask c .done
  | retries + 1 => .ask c fun answer =>
    match answer with
    | .error e => if e.isTransient then askUpTo c retries else .done (.error e)
    | .ok v => .done (.ok v)

/-- Makes a call with the attempts a configuration allows. -/
def askWithRetry (config : RetryConfig) (c : VendorCall) : Program Answer :=
  askUpTo c (config.maxAttempts - 1)

end Program

end CloudAudit
