import PingWaf.Lib.Pool
import PingWaf.Lib.Saturating

/-!
# The scan budget

`ScanBudgetGuard` and the part of `WafEngine::inspect` that holds one. Any number of inspections
run at once; each operation on `TOTAL_SCAN_USED` is one step. A guard is dropped when the inspection
is left, by return or by unwinding, so there is one step out of `reserved`.
-/

namespace PingWaf.Waf

/-- The budget, for the parsed value of `PINGWAF_MAX_TOTAL_SCAN_BYTES`. -/
def maxTotalScanBytes (env : Option Nat) : Nat :=
  max (8 * 1024 * 1024) (min (1024 * 1024 * 1024) (env.getD (128 * 1024 * 1024)))

inductive Inspection where
  | entered (bytes : Nat)
  | trying (bytes used : Nat)
  | reserved (bytes : Nat)
  | withoutBody
  | ended

namespace Inspection

/-- One round of the loop of `try_acquire`: `used` was read before, `total` is the counter now. The
weak exchange may fail although the two are equal. -/
def tryAcquire (limit : Nat) (spurious : Bool) (total bytes used : Nat) : Nat × Inspection :=
  if satAdd maxU64 used bytes > limit then (total, .withoutBody)
  else if total = used ∧ spurious = false then (used + bytes, .reserved bytes)
  else (total, .trying bytes total)

/-- `fetch_sub` of the guard's `drop`. -/
def dropGuard (total bytes : Nat) : Nat := (total + 2 ^ 64 - bytes) % 2 ^ 64

def step (limit : Nat) (spurious : Bool) (total : Nat) : Inspection → Nat × Inspection
  | .entered bytes => (total, .trying (min bytes limit) total)
  | .trying bytes used => tryAcquire limit spurious total bytes used
  | .reserved bytes => (dropGuard total bytes, .ended)
  | .withoutBody => (total, .ended)
  | .ended => (total, .ended)

/-- What the guard of an inspection has reserved. -/
def held : Inspection → Nat
  | .reserved bytes => bytes
  | _ => 0

end Inspection

/-- `inspect` is called for an estimate of bytes, or in mode `Off`, which inspects nothing. -/
def inspections (limit : Nat) : Pool.System Nat Inspection Empty (Option Nat) Bool where
  env e := e.elim
  start call _ := call.elim .ended .entered
  step := Inspection.step limit

end PingWaf.Waf
