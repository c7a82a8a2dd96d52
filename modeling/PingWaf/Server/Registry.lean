import PingWaf.Lib.Pool

/-!
# The registry of connected agents

Commands reach an agent over its heartbeat stream. While the agent is away they wait in a bounded
queue, which the next stream replays. A call reads under the lock which stream is registered, tries
to put the command on it and, where that fails, takes the lock again to queue the command. Every
locked section and every `try_send` is one turn of a task.
-/

namespace PingWaf.Server

def commandChannelCapacity : Nat := 64

def pendingCommandLimit : Nat := 64

/-- A heartbeat stream: what the agent has taken from its channel and what is still buffered. A
stream that is not alive takes its buffer with it. -/
structure Stream (C : Type) where
  received : List C
  buffer : List C
  alive : Bool

def Stream.hasRoom {C : Type} (s : Stream C) : Bool := s.buffer.length < commandChannelCapacity

def Stream.carried {C : Type} (s : Stream C) : List C := s.received ++ s.buffer

structure Connection where
  sender : Nat
  generation : Nat

/-- What the registry holds for one agent, and the streams the agent has opened. `put` and
`overflowed` are not in the source: all that was put on a stream, in order, and all that the queue
has dropped. -/
structure Link (C : Type) where
  connected : Option Connection
  pending : List C
  streams : List (Stream C)
  put : List C
  overflowed : List C

structure Registry (Id C : Type) where
  agents : Id → Link C
  nextGeneration : Nat

section

variable {Id C : Type} [DecidableEq Id]

def Registry.modify (r : Registry Id C) (a : Id) (f : Link C → Link C) : Registry Id C :=
  { r with agents := Function.update r.agents a (f (r.agents a)) }

inductive SendError where
  | full
  | closed

/-- `Sender::try_send`. -/
def Link.trySend (l : Link C) (sender : Nat) (command : C) : Except SendError (Link C) :=
  match l.streams[sender]? with
  | none => .error .closed
  | some s =>
    if !s.alive then .error .closed
    else if !s.hasRoom then .error .full
    else .ok { l with
      streams := l.streams.set sender { s with buffer := s.buffer ++ [command] }
      put := l.put ++ [command] }

/-- `enqueue`: the oldest command is dropped rather than growing without bound. -/
def Link.enqueue (l : Link C) (command : C) : Link C :=
  if pendingCommandLimit ≤ l.pending.length then
    { l with
      pending := l.pending.drop 1 ++ [command]
      overflowed := l.overflowed ++ l.pending.take 1 }
  else { l with pending := l.pending ++ [command] }

/-- The locked section of `connect`, with the channel of the new stream. -/
def Link.connect (l : Link C) (generation : Nat) : Link C × List C :=
  ({ l with
      connected := some ⟨l.streams.length, generation⟩
      streams := l.streams ++ [⟨[], [], true⟩]
      pending := [] },
    l.pending)

def Link.disconnect (l : Link C) (generation : Nat) : Link C :=
  match l.connected with
  | some current => if current.generation = generation then { l with connected := none } else l
  | none => l

/-! ## Tasks -/

/-- Where a task stands: before the locked section of `connect`, or in a `send_command`: before it
reads the registered stream, before `try_send`, before `enqueue`. -/
inductive SendPhase (C : Type) where
  | connecting
  | reading (command : C)
  | trying (sender : Nat) (command : C)
  | queueing (command : C)
  | finished

/-- A call of `send_command`, or a heartbeat that connects and replays what was queued. -/
structure Sending (Id C : Type) where
  agent : Id
  replays : Bool
  phase : SendPhase C
  rest : List C

def Sending.commands (t : Sending Id C) : List C :=
  match t.phase with
  | .connecting => []
  | .reading c => c :: t.rest
  | .trying _ c => c :: t.rest
  | .queueing c => c :: t.rest
  | .finished => []

/-- One `send_command` is done; a replay goes on with the next command. -/
def Sending.next (t : Sending Id C) : Sending Id C :=
  match t.rest with
  | [] => { t with phase := .finished }
  | c :: rest => { t with phase := .reading c, rest }

inductive RegistryCall (Id C : Type) where
  | sendCommand (agent : Id) (command : C)
  | heartbeat (agent : Id)

def RegistryCall.agent : RegistryCall Id C → Id
  | .sendCommand a _ => a
  | .heartbeat a => a

def RegistryCall.task : RegistryCall Id C → Sending Id C
  | .sendCommand a c => ⟨a, false, .reading c, []⟩
  | .heartbeat a => ⟨a, true, .connecting, []⟩

/-- What happens to a stream and its connection from elsewhere: the agent takes a command, the
stream dies, its teardown takes the connection out of the registry. -/
inductive RegistryEvent (Id : Type) where
  | receive (agent : Id) (sender : Nat)
  | close (agent : Id) (sender : Nat)
  | disconnect (agent : Id) (generation : Nat)

def Stream.receive (s : Stream C) : Stream C :=
  match s.buffer with
  | [] => s
  | c :: buffer => if s.alive then { s with received := s.received ++ [c], buffer } else s

def Link.onStream (l : Link C) (sender : Nat) (f : Stream C → Stream C) : Link C :=
  { l with streams := l.streams.modify sender f }

def RegistryEvent.apply : RegistryEvent Id → Registry Id C → Registry Id C
  | .receive a i, r => r.modify a (·.onStream i Stream.receive)
  | .close a i, r => r.modify a (·.onStream i fun s => { s with alive := false })
  | .disconnect a g, r => r.modify a (·.disconnect g)

/-- One locked section or one `try_send`. -/
def Sending.step (r : Registry Id C) (t : Sending Id C) : Registry Id C × Sending Id C :=
  let l := r.agents t.agent
  match t.phase with
  | .connecting =>
    let generation := (r.nextGeneration + 1) % 2 ^ 64
    let (l, drained) := l.connect generation
    ({ r.modify t.agent fun _ => l with nextGeneration := generation },
      Sending.next { t with rest := drained })
  | .reading c =>
    match l.connected with
    | some connection => (r, { t with phase := .trying connection.sender c })
    | none => (r, { t with phase := .queueing c })
  | .trying sender c =>
    match l.trySend sender c with
    | .ok l => (r.modify t.agent fun _ => l, t.next)
    | .error _ => (r, { t with phase := .queueing c })
  | .queueing c => (r.modify t.agent (·.enqueue c), t.next)
  | .finished => (r, t)

def registry (Id C : Type) [DecidableEq Id] :
    Pool.System (Registry Id C) (Sending Id C) (RegistryEvent Id) (RegistryCall Id C) Unit where
  env := RegistryEvent.apply
  start call _ := call.task
  step _ r t := t.step r

abbrev RegistryAct (Id C : Type) : Type := Pool.Act (RegistryEvent Id) (RegistryCall Id C) Unit

abbrev RegistryState (Id C : Type) : Type := Pool.State (Registry Id C) (Sending Id C)

/-- `AgentRegistry::new`. -/
def newRegistry (Id C : Type) : RegistryState Id C := ⟨⟨fun _ => ⟨none, [], [], [], []⟩, 0⟩, []⟩

/-- The commands for which `send_command` was called for an agent, in the order of the calls. -/
def commandsCalled (a : Id) (acts : List (RegistryAct Id C)) : List C :=
  acts.filterMap fun
    | .spawn (.sendCommand b c) => if b = a then some c else none
    | _ => none

def Sending.commandsFor (a : Id) (t : Sending Id C) : List C :=
  if t.agent = a then t.commands else []

def Sending.busy (t : Sending Id C) : Bool :=
  match t.phase with
  | .finished => false
  | _ => true

def Sending.findsFull (l : Link C) (t : Sending Id C) : Bool :=
  match t.phase with
  | .trying sender _ => l.streams[sender]?.any fun s => s.alive && !s.hasRoom
  | _ => false

/-- No call and no replay for the agent starts while another is under way, and no `send_command`
finds the channel of a live stream full. -/
def Orderly (a : Id) (p : RegistryState Id C) : RegistryAct Id C → Prop
  | .env _ => True
  | .spawn call => call.agent = a → ∀ t ∈ p.tasks, t.agent = a → t.busy = false
  | .turn i _ => ∀ t ∈ p.tasks[i]?, t.agent = a → t.replays = false →
      t.findsFull (p.shared.agents a) = false

instance (a : Id) (p : RegistryState Id C) : ∀ act, Decidable (Orderly a p act)
  | .env _ => .isTrue trivial
  | .spawn call =>
    inferInstanceAs (Decidable (call.agent = a → ∀ t ∈ p.tasks, t.agent = a → t.busy = false))
  | .turn i _ =>
    inferInstanceAs (Decidable (∀ t ∈ p.tasks[i]?, t.agent = a → t.replays = false →
      t.findsFull (p.shared.agents a) = false))

structure Delivers (a : Id) (acts : List (RegistryAct Id C)) (p : RegistryState Id C) : Prop where
  /-- What was put on its streams is in the order of the calls. -/
  ordered : (p.shared.agents a).put.Sublist (commandsCalled a acts)
  /-- Each command that was called is put once, still on its way, or dropped by the full queue. -/
  accounted :
    ((p.shared.agents a).put ++ (p.shared.agents a).overflowed ++ (p.shared.agents a).pending ++
      p.tasks.flatMap (Sending.commandsFor a)).Perm (commandsCalled a acts)
  /-- What was put on a stream has been received, or is in the buffer of a stream. -/
  carried : ((p.shared.agents a).streams.flatMap Stream.carried).Perm (p.shared.agents a).put
  /-- No command waits in the queue while the registered stream is alive and has room. -/
  drained : ∀ k s, (p.shared.agents a).connected = some k →
    (p.shared.agents a).streams[k.sender]? = some s → s.alive = true → s.hasRoom = true →
    (p.shared.agents a).pending = []

end

end PingWaf.Server
