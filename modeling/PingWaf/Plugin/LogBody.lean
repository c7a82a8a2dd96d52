import Mathlib

/-!
# The body prefix of the log

`LogBodyPrefix` keeps the first bytes of a request body for the log entry, and counts what it holds
in the memory gauge of the log module. Each operation yields what it adds to the gauge.
-/

namespace PingWaf.Plugin

structure LogBodyPrefix where
  limit : Nat
  body : Option (List UInt8)
  size : Nat
  truncated : Bool

namespace LogBodyPrefix

def new (limit : Nat) : LogBodyPrefix := ⟨limit, none, 0, false⟩

def held (p : LogBodyPrefix) : Nat := (p.body.getD []).length

/-- A body of exactly `limit` bytes is not truncated, so one chunk may go beyond the limit. -/
def absorb (p : LogBodyPrefix) (chunk : List UInt8) : LogBodyPrefix × Int :=
  let q := { p with size := p.size + chunk.length }
  if p.limit = 0 then (q, 0)
  else
    let buf := p.body.getD []
    let buf := if buf.length ≤ p.limit then buf ++ chunk else buf
    ({ q with body := some buf }, if p.held < buf.length then buf.length - p.held else 0)

def drop (p : LogBodyPrefix) : Int := if 0 < p.held then -p.held else 0

/-- The body is taken out, and what is left is dropped. -/
def finish (p : LogBodyPrefix) : (Option (List UInt8) × Nat × Bool) × Int :=
  let trim := p.limit < p.held
  let q := if trim then { p with body := p.body.map (·.take p.limit), truncated := true } else p
  ((q.body, q.size, q.truncated),
    (if trim then -((p.held - p.limit : Nat) : Int) else 0) + q.drop + drop { q with body := none })

def absorbAll (st : LogBodyPrefix × Int) (chunks : List (List UInt8)) : LogBodyPrefix × Int :=
  chunks.foldl (fun st chunk => ((st.1.absorb chunk).1, st.2 + (st.1.absorb chunk).2)) st

end LogBodyPrefix

end PingWaf.Plugin
