import Hollywood.Foundation.Transition
import Hollywood.Remote

/-! The stream router (`remote/stream_router.go`), the stream writers that it spawns
and the registry that both use (`actor/registry.go`). The router handles one
message at a time and runs `SpawnProc` with the writer's `Start` and `init` in its
own goroutine; a writer whose connection is lost runs `Shutdown` in another one.
Each call on the registry, the router's mailbox or an inbox is one step.

A failed `tls.Dial` leaves a nil `*tls.Conn` in `rawconn`, which as a `net.Conn` is not
nil, and the call of `SetDeadline` panics. The process of the router recovers: the
message in hand is lost and a new `streamRouter` starts with an empty map, until the
restarts are used up. The writer stays as `Start` has left it. -/
namespace Hollywood.Remote

inductive RouterMsg (P : Type) where
  | streamDeliver (stream : StreamDeliver P)
  | remoteUnreachable (listenAddr : String)
  deriving DecidableEq, Repr

/-- The calls that `Shutdown` still has to make. -/
inductive ShutdownPc where
  | notify
  | broadcast
  | closeStream
  | stopInbox
  | remove
  deriving DecidableEq, Repr

/-- `created` is a writer that `Start` was not called on; `running` one whose
connection nobody watches. -/
inductive Phase where
  | created
  | running
  | watched
  | shutdown (pc : ShutdownPc)
  | stopped
  deriving DecidableEq, Repr

/-- `closed` is set once `Invoke` has closed the connection. -/
structure StreamWriter (P : Type) where
  writeToAddr : String
  pid : PID
  started : Bool
  connected : Bool
  closed : Bool
  inbox : List (StreamDeliver P)
  phase : Phase
  deriving DecidableEq, Repr

def newStreamWriter (engine address : String) : StreamWriter P where
  writeToAddr := address
  pid := ⟨engine, "stream/" ++ address⟩
  started := false
  connected := false
  closed := false
  inbox := []
  phase := .created

inductive RouterEvent (P : Type) where
  | remoteUnreachable (listenAddr : String)
  | actorDuplicateId (pid : PID)
  | deadLetter (target : PID) (stream : StreamDeliver P)
  deriving DecidableEq, Repr

/-- Where the router's goroutine stands in `deliverStream`; `panicked` is the crash
beyond the restart limit, which ends the program. -/
inductive RouterPc (P : Type) where
  | receive
  | add (stream : StreamDeliver P) (writer : Nat)
  | start (stream : StreamDeliver P) (writer : Nat)
  | init (stream : StreamDeliver P) (writer : Nat)
  | shutdown (stream : StreamDeliver P) (writer : Nat)
  | store (stream : StreamDeliver P) (writer : Nat)
  | send (stream : StreamDeliver P) (swpid : PID)
  | panicked (stream : StreamDeliver P)
  deriving DecidableEq, Repr

/-- Writers are told apart by the order in which they were made; the registry maps
the id of a PID to the writer added under it. `tls` says whether the remote has a TLS
config; `lost` records the messages in whose handling the router panicked. -/
structure Routing (P : Type) where
  engine : String
  tls : Bool
  mailbox : List (RouterMsg P)
  streams : String → Option PID
  registry : String → Option Nat
  writers : List (StreamWriter P)
  router : RouterPc P
  restarts : Nat
  events : List (RouterEvent P)
  lost : List (StreamDeliver P)

/-- How `init` ends: nobody answers the dial, the deadline of the connection cannot
be set, the remote refuses the stream, or the writer is connected. -/
inductive Dial where
  | unreachable
  | deadline
  | refused
  | connected
  deriving DecidableEq, Repr

/-- The goroutine that watches a connection sees it end: by itself, or because `Invoke`
has closed it. -/
inductive RoutingLabel (P : Type) where
  | deliver (stream : StreamDeliver P)
  | router
  | init (dial : Dial)
  | lose (writer : Nat)
  | closed (writer : Nat)
  | shutdown (writer : Nat)
  deriving DecidableEq, Repr

namespace Routing
variable {P : Type}

def initial (engine : String) (tls : Bool) : Routing P where
  engine := engine
  tls := tls
  mailbox := []
  streams := fun _ => none
  registry := fun _ => none
  writers := []
  router := .receive
  restarts := 0
  events := []
  lost := []

def modify (s : Routing P) (writer : Nat) (change : StreamWriter P → StreamWriter P) : Routing P :=
  { s with writers := s.writers.modify writer change }

def handleTerminateStream (s : Routing P) (listenAddr : String) : Routing P :=
  { s with streams := Function.update s.streams listenAddr none }

/-- The beginning of `deliverStream`: the lookup and, if need be, a new writer. -/
def deliverStream (s : Routing P) (stream : StreamDeliver P) : Routing P :=
  match s.streams stream.target.address with
  | some swpid => { s with router := .send stream swpid }
  | none => { s with
      writers := s.writers ++ [newStreamWriter s.engine stream.target.address]
      router := .add stream s.writers.length }

def receive (s : Routing P) : Option (Routing P) :=
  match s.mailbox with
  | [] => none
  | .remoteUnreachable listenAddr :: rest =>
    some (handleTerminateStream { s with mailbox := rest } listenAddr)
  | .streamDeliver stream :: rest => some (deliverStream { s with mailbox := rest } stream)

/-- `Registry.add`, which starts nothing under an id that is taken. -/
def add (s : Routing P) (stream : StreamDeliver P) (writer : Nat) (pid : PID) : Routing P :=
  match s.registry pid.id with
  | some _ => { s with router := .store stream writer, events := s.events ++ [.actorDuplicateId pid] }
  | none => { s with
      registry := Function.update s.registry pid.id (some writer)
      router := .start stream writer }

def send (s : Routing P) (stream : StreamDeliver P) (swpid : PID) : Routing P :=
  match s.registry swpid.id with
  | some writer =>
    { modify s writer (fun w => { w with inbox := w.inbox ++ [stream] }) with router := .receive }
  | none => { s with router := .receive, events := s.events ++ [.deadLetter swpid stream] }

/-- The next action of the router's goroutine, `init` apart. -/
def advance (s : Routing P) : Option (Routing P) :=
  match s.router with
  | .receive => s.receive
  | .add stream writer => do
    let w ← s.writers[writer]?
    pure (s.add stream writer w.pid)
  | .start stream writer =>
    some { modify s writer (fun w => { w with started := true, phase := .running }) with
      router := .init stream writer }
  | .init _ _ | .panicked _ => none
  | .shutdown stream writer => do
    let w ← s.writers[writer]?
    if w.phase = .stopped then pure { s with router := .store stream writer } else none
  | .store stream writer => do
    let w ← s.writers[writer]?
    pure { s with
      streams := Function.update s.streams stream.target.address (some w.pid)
      router := .send stream w.pid }
  | .send stream swpid => some (s.send stream swpid)

/-- `tryRestart` of the router's process. -/
def tryRestart (s : Routing P) (stream : StreamDeliver P) : Routing P :=
  if s.restarts = defaultMaxRestarts then { s with router := .panicked stream }
  else { s with
    streams := fun _ => none
    router := .receive
    restarts := s.restarts + 1
    lost := s.lost ++ [stream] }

def init (s : Routing P) (dial : Dial) : Option (Routing P) :=
  match s.router with
  | .init stream writer =>
    match dial with
    | .unreachable =>
      if s.tls then some (s.tryRestart stream)
      else some { modify s writer (fun w => { w with phase := .shutdown .notify }) with
        router := .shutdown stream writer }
    | .refused =>
      some { modify s writer (fun w => { w with phase := .shutdown .notify }) with
        router := .shutdown stream writer }
    | .deadline => some { s with router := .store stream writer }
    | .connected =>
      some { modify s writer (fun w => { w with connected := true, phase := .watched }) with
        router := .store stream writer }
  | _ => none

/-- The next call of `Shutdown`. -/
def shutdown (s : Routing P) (writer : Nat) (w : StreamWriter P) : ShutdownPc → Routing P
  | .notify => { modify s writer (fun w => { w with phase := .shutdown .broadcast }) with
      mailbox := s.mailbox ++ [.remoteUnreachable w.writeToAddr] }
  | .broadcast => { modify s writer (fun w => { w with phase := .shutdown .closeStream }) with
      events := s.events ++ [.remoteUnreachable w.writeToAddr] }
  | .closeStream => modify s writer fun w => { w with connected := false, phase := .shutdown .stopInbox }
  | .stopInbox => modify s writer fun w => { w with started := false, phase := .shutdown .remove }
  | .remove => { modify s writer (fun w => { w with phase := .stopped }) with
      registry := Function.update s.registry w.pid.id none }

def step (s : Routing P) : RoutingLabel P → Option (Routing P)
  | .deliver stream => some { s with mailbox := s.mailbox ++ [.streamDeliver stream] }
  | .router => s.advance
  | .init dial => s.init dial
  | .lose writer => do
    let w ← s.writers[writer]?
    if w.phase = .watched then
      pure (s.modify writer fun w => { w with phase := .shutdown .notify })
    else none
  | .closed writer => do
    let w ← s.writers[writer]?
    if w.phase = .watched && w.closed then
      pure (s.modify writer fun w => { w with phase := .shutdown .notify })
    else none
  | .shutdown writer => do
    let w ← s.writers[writer]?
    match w.phase with
    | .shutdown pc => pure (s.shutdown writer w pc)
    | _ => none

/-- All that a step can do. -/
inductive Move (s : Routing P) : RoutingLabel P → Routing P → Prop where
  | deliver (stream) : Move s (.deliver stream)
      { s with mailbox := s.mailbox ++ [.streamDeliver stream] }
  | terminate : s.router = .receive → s.mailbox = .remoteUnreachable listenAddr :: rest →
      Move s .router (handleTerminateStream { s with mailbox := rest } listenAddr)
  | known : s.router = .receive → s.mailbox = .streamDeliver stream :: rest →
      s.streams stream.target.address = some swpid →
      Move s .router { s with mailbox := rest, router := .send stream swpid }
  | create : s.router = .receive → s.mailbox = .streamDeliver stream :: rest →
      s.streams stream.target.address = none →
      Move s .router { s with
        mailbox := rest
        writers := s.writers ++ [newStreamWriter s.engine stream.target.address]
        router := .add stream s.writers.length }
  | duplicate : s.router = .add stream writer → s.writers[writer]? = some w →
      s.registry w.pid.id = some other →
      Move s .router { s with
        router := .store stream writer, events := s.events ++ [.actorDuplicateId w.pid] }
  | add : s.router = .add stream writer → s.writers[writer]? = some w → s.registry w.pid.id = none →
      Move s .router { s with
        registry := Function.update s.registry w.pid.id (some writer)
        router := .start stream writer }
  | start : s.router = .start stream writer →
      Move s .router { modify s writer (fun w => { w with started := true, phase := .running }) with
        router := .init stream writer }
  | stopped : s.router = .shutdown stream writer → s.writers[writer]? = some w → w.phase = .stopped →
      Move s .router { s with router := .store stream writer }
  | store : s.router = .store stream writer → s.writers[writer]? = some w →
      Move s .router { s with
        streams := Function.update s.streams stream.target.address (some w.pid)
        router := .send stream w.pid }
  | send : s.router = .send stream swpid → s.registry swpid.id = some writer →
      Move s .router { modify s writer (fun w => { w with inbox := w.inbox ++ [stream] }) with
        router := .receive }
  | deadLetter : s.router = .send stream swpid → s.registry swpid.id = none →
      Move s .router { s with router := .receive, events := s.events ++ [.deadLetter swpid stream] }
  | crash : s.router = .init stream writer → s.tls = true → s.restarts = defaultMaxRestarts →
      Move s (.init .unreachable) { s with router := .panicked stream }
  | restart : s.router = .init stream writer → s.tls = true → s.restarts ≠ defaultMaxRestarts →
      Move s (.init .unreachable) { s with
        streams := fun _ => none
        router := .receive
        restarts := s.restarts + 1
        lost := s.lost ++ [stream] }
  | fail : s.router = .init stream writer →
      Move s (.init dial) { modify s writer (fun w => { w with phase := .shutdown .notify }) with
        router := .shutdown stream writer }
  | deadline : s.router = .init stream writer →
      Move s (.init dial) { s with router := .store stream writer }
  | connect : s.router = .init stream writer →
      Move s (.init dial) { modify s writer (fun w => { w with connected := true, phase := .watched }) with
        router := .store stream writer }
  | lose : s.writers[writer]? = some w → w.phase = .watched →
      Move s (.lose writer) (s.modify writer fun w => { w with phase := .shutdown .notify })
  | closed : s.writers[writer]? = some w → w.phase = .watched → w.closed = true →
      Move s (.closed writer) (s.modify writer fun w => { w with phase := .shutdown .notify })
  | shutdown : s.writers[writer]? = some w → w.phase = .shutdown pc →
      Move s (.shutdown writer) (s.shutdown writer w pc)

theorem receive_move (position : s.router = .receive) (received : receive s = some t) :
    Move (P := P) s .router t := by
  unfold receive at received
  split at received
  · cases received
  · rename_i listenAddr rest mail
    cases received
    exact .terminate position mail
  · rename_i stream rest mail
    cases received
    cases found : s.streams stream.target.address with
    | some swpid =>
      simp only [deliverStream, found]
      exact .known position mail found
    | none =>
      simp only [deliverStream, found]
      exact .create position mail found

theorem advance_move (advanced : advance s = some t) : Move (P := P) s .router t := by
  unfold advance at advanced
  split at advanced
  · exact receive_move (by assumption) advanced
  · rename_i stream writer position
    simp only [Option.bind_eq_bind, Option.bind_eq_some_iff, Option.pure_def, Option.some.injEq] at advanced
    obtain ⟨w, found, rfl⟩ := advanced
    cases taken : s.registry w.pid.id with
    | some other =>
      simp only [Routing.add, taken]
      exact .duplicate position found taken
    | none =>
      simp only [Routing.add, taken]
      exact .add position found taken
  · cases advanced
    exact .start (by assumption)
  · cases advanced
  · cases advanced
  · rename_i stream writer position
    simp only [Option.bind_eq_bind, Option.bind_eq_some_iff, Option.pure_def] at advanced
    obtain ⟨w, found, finished⟩ := advanced
    split at finished
    · cases finished
      exact .stopped position found (by assumption)
    · cases finished
  · rename_i stream writer position
    simp only [Option.bind_eq_bind, Option.bind_eq_some_iff, Option.pure_def, Option.some.injEq] at advanced
    obtain ⟨w, found, rfl⟩ := advanced
    exact .store position found
  · rename_i stream swpid position
    cases advanced
    cases found : s.registry swpid.id with
    | some writer =>
      simp only [Routing.send, found]
      exact .send position found
    | none =>
      simp only [Routing.send, found]
      exact .deadLetter position found

theorem step_move (stepped : step s label = some t) : Move (P := P) s label t := by
  cases label with
  | deliver stream =>
    cases stepped
    exact .deliver stream
  | router => exact advance_move stepped
  | init dial =>
    simp only [step, init] at stepped
    split at stepped
    · rename_i stream writer position
      cases dial with
      | unreachable =>
        dsimp only at stepped
        split at stepped
        · rename_i tls
          cases stepped
          by_cases limit : s.restarts = defaultMaxRestarts
          · rw [tryRestart, if_pos limit]
            exact .crash position tls limit
          · rw [tryRestart, if_neg limit]
            exact .restart position tls limit
        · cases stepped
          exact .fail position
      | deadline =>
        cases stepped
        exact .deadline position
      | refused =>
        cases stepped
        exact .fail position
      | connected =>
        cases stepped
        exact .connect position
    · cases stepped
  | lose writer =>
    simp only [step, Option.bind_eq_bind, Option.bind_eq_some_iff, Option.pure_def] at stepped
    obtain ⟨w, found, lost⟩ := stepped
    split at lost
    · cases lost
      exact .lose found (by assumption)
    · cases lost
  | closed writer =>
    simp only [step, Option.bind_eq_bind, Option.bind_eq_some_iff, Option.pure_def] at stepped
    obtain ⟨w, found, ended⟩ := stepped
    split at ended
    · rename_i both
      cases ended
      obtain ⟨watched, closed⟩ := Bool.and_eq_true_iff.mp both
      exact .closed found (of_decide_eq_true watched) closed
    · cases ended
  | shutdown writer =>
    simp only [step, Option.bind_eq_bind, Option.bind_eq_some_iff, Option.pure_def] at stepped
    obtain ⟨w, found, called⟩ := stepped
    split at called
    · cases called
      exact .shutdown found (by assumption)
    · cases called

end Routing

end Hollywood.Remote
