import DjApp.Library.BinaryRounding
import DjApp.Library.Machine

/-! The token bucket of one connection and the ban of a connection that exhausts it. -/

set_option autoImplicit false

namespace DjApp.Server

open Library

structure RateLimit where
  sustainedPerSecond : ℚ
  burst : ℚ
  banAfterMs : ℚ

def defaultRateLimit : RateLimit := ⟨60, 120, 5000⟩

/-- The fields of a connection's record that `charge` reads and writes. Times are
those of `Date.now()`, in whole milliseconds. -/
structure Record where
  tokens : ℚ
  lastRefillMs : ℤ
  rateLimitedSince : Option ℤ
  ejected : Bool
  deriving DecidableEq

/-- What one charge does beside the bookkeeping: whether the frame is served, and
whether the `rate-limited` error is sent and the connection closed with 4003. -/
structure Charge where
  served : Bool
  warned : Bool
  banned : Bool
  deriving DecidableEq

section Charging

variable (fl : ℚ → ℚ) (rateLimit : RateLimit)

def refill (record : Record) (now : ℤ) : Record :=
  let elapsedMs := now - record.lastRefillMs
  if elapsedMs ≤ 0 then record
  else
    { record with
      lastRefillMs := now
      tokens := min rateLimit.burst
        (fl (record.tokens + fl (fl (elapsedMs / 1000) * rateLimit.sustainedPerSecond))) }

def charge (record : Record) (now : ℤ) : Record × Charge :=
  let filled := refill fl rateLimit record now
  let served : Bool := 1 ≤ filled.tokens
  let warned := !served && filled.rateLimitedSince.isNone
  let since := if served then none else some (filled.rateLimitedSince.getD now)
  let banned := since.any fun since => rateLimit.banAfterMs < (now - since : ℤ)
  ({ filled with
      tokens := if served then fl (filled.tokens - 1) else filled.tokens
      rateLimitedSince := since
      ejected := banned },
    -- A ban returns before the frame is handled.
    ⟨served && !banned, warned, banned⟩)

/-- The handler of a frame: nothing is done for an ejected connection. -/
def onFrame (record : Record) (now : ℤ) : Record × Option Charge :=
  if record.ejected then (record, none)
  else
    let charged := charge fl rateLimit record now
    (charged.1, some charged.2)

def connected (now : ℤ) : Record := ⟨rateLimit.burst, now, none, false⟩

/-- What the frames of one connection meet, in the order they arrive. -/
def frameTrace (connectedAt : ℤ) (arrivals : List ℤ) :
    List (Machine.Entry Record ℤ (Option Charge)) :=
  Machine.trace (onFrame fl rateLimit) (connected rateLimit connectedAt) arrivals

def recordAfter (connectedAt : ℤ) (arrivals : List ℤ) : Record :=
  Machine.run (onFrame fl rateLimit) (connected rateLimit connectedAt) arrivals

end Charging

end DjApp.Server
