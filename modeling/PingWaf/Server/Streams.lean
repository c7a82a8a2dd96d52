import PingWaf.Lib.Pool

/-!
# The end of a heartbeat stream

An agent may open a heartbeat stream while an earlier one has not ended yet. A database statement or
an operation of the registry is one turn of a task. Instants are milliseconds; generations do not
wrap around.
-/

namespace PingWaf.Server

inductive AgentStatus where
  | online
  | offline
  | degraded
  deriving DecidableEq

def fromProtoHealth (health : Int) : AgentStatus :=
  if health = 2 then .degraded else if health = 3 then .offline else .online

structure AgentRow where
  status : AgentStatus
  lastHeartbeat : Option Nat

/-- The agent's registration and its row. `stored` and `marks` are not in the source: when
heartbeats were stored, and which streams have taken the agent offline, each beside the stream that
was registered then. -/
structure AgentLink where
  registered : Option Nat
  nextGeneration : Nat
  row : AgentRow
  stored : List Nat
  marks : List (Nat × Option Nat)

def AgentLink.fresh (row : AgentRow) : AgentLink := ⟨none, 0, row, row.lastHeartbeat.toList, []⟩

/-- What a stream does next. -/
inductive StreamTask where
  | connecting (health : Int)
  | persisting (generation : Nat) (health : Int)
  | listening (generation : Nat)
  | marking (generation : Nat)
  | disconnecting (generation : Nat)
  | closed

/-- The clock, the next message unless the stream ends, and whether the statement fails. -/
structure StreamInput where
  now : Nat
  message : Option Int
  dbFails : Bool

def offlineAfter : Nat := 2000

/-- The row meets the conditions of `mark_offline`. -/
def AgentRow.goesOffline (row : AgentRow) (now : Nat) : Bool :=
  row.lastHeartbeat.all (· < now - offlineAfter) && row.status != .offline

def StreamTask.step (input : StreamInput) (s : AgentLink) : StreamTask → AgentLink × StreamTask
  | .connecting health =>
    ({ s with registered := some (s.nextGeneration + 1), nextGeneration := s.nextGeneration + 1 },
      .persisting (s.nextGeneration + 1) health)
  | .persisting generation health =>
    (if input.dbFails then s
      else { s with
        row := ⟨fromProtoHealth health, some input.now⟩
        stored := s.stored ++ [input.now] },
      .listening generation)
  | .listening generation =>
    (s, match input.message with
      | some health => .persisting generation health
      | none => .marking generation)
  | .marking generation =>
    (if !input.dbFails && s.row.goesOffline input.now then
        { s with
          row := { s.row with status := .offline }
          marks := s.marks ++ [(generation, s.registered)] }
      else s,
      .disconnecting generation)
  | .disconnecting generation =>
    -- only the stream that owns the current generation may remove the connection
    ({ s with registered := if s.registered = some generation then none else s.registered },
      .closed)
  | .closed => (s, .closed)

def streams : Pool.System AgentLink StreamTask Empty Int StreamInput where
  env e := nomatch e
  start health _ := .connecting health
  step input s t := t.step input s

end PingWaf.Server
