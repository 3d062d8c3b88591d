import Hollywood.Foundation.Pool
import Hollywood.Foundation.Transition

/-! Starting and stopping the remote (`Start` and `Stop` of `remote/remote.go`), called
from any goroutines. One step is one access to `state` or `stopCh`, an attempt to
listen, or the exchange over `stopCh`, which is not buffered. The server and the
router that `Start` spawns are left out. -/
namespace Hollywood.Remote.Listening
open Transition

inductive RemoteState where
  | invalid
  | initialized
  | running
  | stopped
  deriving DecidableEq, Repr

/-- The places in `Start`: it is refused when the remote is not freshly initialized and
fails when it cannot listen. -/
inductive StartPc where
  | load
  | store
  | listen
  | makeStopCh
  | spawn
  | returned
  | failed
  | refused
  deriving DecidableEq, Repr

/-- The places in `Stop`; the channel to send on is read before the exchange. -/
inductive StopPc where
  | load
  | store
  | operand
  | send (ch : Option Nat)
  | sent
  | refused
  deriving DecidableEq, Repr

/-- The goroutine that waits for `stopCh`. -/
inductive ReceiverPc where
  | operand
  | receive (ch : Option Nat)
  | received
  deriving DecidableEq, Repr

inductive Goroutine where
  | start (pc : StartPc)
  | stop (pc : StopPc)
  | receiver (pc : ReceiverPc)
  deriving DecidableEq, Repr

/-- The fields that the goroutines share, and the number of channels made so far. -/
structure Fields where
  state : RemoteState
  stopCh : Option Nat
  made : Nat
  deriving DecidableEq, Repr

structure State where
  fields : Fields
  pool : List Goroutine
  deriving DecidableEq, Repr

inductive Label where
  | start
  | stop
  | step (i : Nat)
  | listen (i : Nat) (ok : Bool)
  | exchange (sender receiver : Nat)
  deriving DecidableEq, Repr

def Label.internal : Label → Bool
  | .start | .stop => false
  | _ => true

def initial : State := ⟨⟨.initialized, none, 0⟩, []⟩

/-- The next action of a goroutine that neither listens nor exchanges. -/
def Fields.act (r : Fields) : Goroutine → Option (Fields × Goroutine × List Goroutine)
  | .start .load =>
    some (r, .start (if r.state = .initialized then .store else .refused), [])
  | .start .store => some ({ r with state := .running }, .start .listen, [])
  | .start .makeStopCh => some ({ r with stopCh := some r.made, made := r.made + 1 }, .start .spawn, [])
  | .start .spawn => some (r, .start .returned, [.receiver .operand])
  | .stop .load => some (r, .stop (if r.state = .running then .store else .refused), [])
  | .stop .store => some ({ r with state := .stopped }, .stop .operand, [])
  | .stop .operand => some (r, .stop (.send r.stopCh), [])
  | .receiver .operand => some (r, .receiver (.receive r.stopCh), [])
  | _ => none

def State.step (s : State) : Label → Option State
  | .start => some { s with pool := s.pool ++ [.start .load] }
  | .stop => some { s with pool := s.pool ++ [.stop .load] }
  | .step i => do
    let g ← s.pool[i]?
    let (fields, next, spawned) ← s.fields.act g
    pure ⟨fields, s.pool.set i next ++ spawned⟩
  | .listen i ok =>
    match s.pool[i]? with
    | some (.start .listen) =>
      some { s with pool := s.pool.set i (.start (if ok then .makeStopCh else .failed)) }
    | _ => none
  | .exchange sender receiver =>
    match s.pool[sender]?, s.pool[receiver]? with
    | some (.stop (.send (some ch))), some (.receiver (.receive (some other))) =>
      if ch = other then
        some { s with pool := (s.pool.set sender (.stop .sent)).set receiver (.receiver .received) }
      else none
    | _, _ => none

/-- Nobody can go on without a new call. -/
def State.Stuck (s : State) : Prop := ∀ label : Label, label.internal = true → s.step label = none

/-- What one goroutine can do by itself. -/
inductive Advance (r : Fields) : Goroutine → Fields → Goroutine → List Goroutine → Prop where
  | passed : r.state = .initialized → Advance r (.start .load) r (.start .store) []
  | refused : Advance r (.start .load) r (.start .refused) []
  | stored : Advance r (.start .store) { r with state := .running } (.start .listen) []
  | made : Advance r (.start .makeStopCh) { r with stopCh := some r.made, made := r.made + 1 }
      (.start .spawn) []
  | spawned : Advance r (.start .spawn) r (.start .returned) [.receiver .operand]
  | stopPassed : r.state = .running → Advance r (.stop .load) r (.stop .store) []
  | stopRefused : Advance r (.stop .load) r (.stop .refused) []
  | stopStored : Advance r (.stop .store) { r with state := .stopped } (.stop .operand) []
  | stopOperand : Advance r (.stop .operand) r (.stop (.send r.stopCh)) []
  | operand : Advance r (.receiver .operand) r (.receiver (.receive r.stopCh)) []

theorem act_advance {r : Fields} (acted : r.act g = some (after, next, spawned)) :
    Advance r g after next spawned := by
  cases g with
  | start pc =>
    cases pc with
    | load =>
      by_cases fresh : r.state = .initialized
      · rw [Fields.act, if_pos fresh] at acted
        cases acted
        exact .passed fresh
      · rw [Fields.act, if_neg fresh] at acted
        cases acted
        exact .refused
    | store =>
      cases acted
      exact .stored
    | makeStopCh =>
      cases acted
      exact .made
    | spawn =>
      cases acted
      exact .spawned
    | _ => cases acted
  | stop pc =>
    cases pc with
    | load =>
      by_cases running : r.state = .running
      · rw [Fields.act, if_pos running] at acted
        cases acted
        exact .stopPassed running
      · rw [Fields.act, if_neg running] at acted
        cases acted
        exact .stopRefused
    | store =>
      cases acted
      exact .stopStored
    | operand =>
      cases acted
      exact .stopOperand
    | _ => cases acted
  | receiver pc =>
    cases pc with
    | operand =>
      cases acted
      exact .operand
    | _ => cases acted

/-- All that a step can do. -/
inductive Move (s : State) : Label → State → Prop where
  | call : (g = .start .load ∨ g = .stop .load) → label.internal = false →
      Move s label { s with pool := s.pool ++ [g] }
  | advance : s.pool[i]? = some g → Advance s.fields g r next spawned →
      Move s (.step i) ⟨r, s.pool.set i next ++ spawned⟩
  | listen : s.pool[i]? = some (.start .listen) → (pc = .makeStopCh ∨ pc = .failed) →
      Move s (.listen i ok) { s with pool := s.pool.set i (.start pc) }
  | exchange : s.pool[i]? = some (.stop (.send (some ch))) →
      s.pool[j]? = some (.receiver (.receive (some ch))) →
      Move s (.exchange i j) { s with pool := (s.pool.set i (.stop .sent)).set j (.receiver .received) }

theorem step_move {s t : State} (stepped : s.step label = some t) : Move s label t := by
  cases label with
  | start =>
    cases stepped
    exact .call (.inl rfl) rfl
  | stop =>
    cases stepped
    exact .call (.inr rfl) rfl
  | step i =>
    simp only [State.step, Option.bind_eq_bind, Option.bind_eq_some_iff, Option.pure_def,
      Option.some.injEq] at stepped
    obtain ⟨g, found, ⟨fields, next, spawned⟩, acted, rfl⟩ := stepped
    exact .advance found (act_advance acted)
  | listen i ok =>
    simp only [State.step] at stepped
    split at stepped
    · rename_i found
      cases stepped
      refine .listen found ?_
      cases ok with
      | true => exact .inl rfl
      | false => exact .inr rfl
    · cases stepped
  | exchange i j =>
    simp only [State.step] at stepped
    split at stepped
    · rename_i sending receiving
      split at stepped
      · rename_i same
        cases stepped
        subst same
        exact .exchange sending receiving
      · cases stepped
    · cases stepped

namespace Goroutine

/-- A `Start` between its check and its store. -/
def storing : Goroutine → Bool
  | .start .store => true
  | _ => false

/-- A `Start` that has stored `running` and not returned nil. -/
def underway : Goroutine → Bool
  | .start .listen | .start .makeStopCh | .start .spawn | .start .failed => true
  | _ => false

def spawning : Goroutine → Bool
  | .start .spawn => true
  | _ => false

/-- A `Start` that has returned nil. -/
def started : Goroutine → Bool
  | .start .returned => true
  | _ => false

/-- A `Stop` between its check and its store. -/
def stopping : Goroutine → Bool
  | .stop .store => true
  | _ => false

/-- A `Stop` that is about to send on `stopCh`. -/
def sending : Goroutine → Bool
  | .stop .operand | .stop (.send _) => true
  | _ => false

def sent : Goroutine → Bool
  | .stop .sent => true
  | _ => false

def isReceiver : Goroutine → Bool
  | .receiver _ => true
  | _ => false

def received : Goroutine → Bool
  | .receiver .received => true
  | _ => false

/-- The channel that a goroutine has read from the remote. -/
def channel : Goroutine → Option (Option Nat)
  | .stop (.send ch) | .receiver (.receive ch) => some ch
  | _ => none

end Goroutine

open Goroutine

/-- A `Start` passes its check only while no other one is between its check and its
store; a `Stop` passes its check only after a `Start` has returned nil and while no
other `Stop` is between its check and its store. -/
def sequenced (s : State) : Label → Bool
  | .step i =>
    match s.pool[i]? with
    | some (.start .load) => s.fields.state ≠ .initialized || s.pool.all (!·.storing)
    | some (.stop .load) =>
      s.fields.state ≠ .running || s.pool.any (·.started) && s.pool.all (!·.stopping)
    | _ => true
  | _ => true

/-- How many goroutines stand where. -/
@[ext] structure Tally where
  storing : Nat
  underway : Nat
  spawning : Nat
  started : Nat
  stopping : Nat
  sending : Nat
  sent : Nat
  receivers : Nat
  received : Nat

def tally (pool : List Goroutine) : Tally where
  storing := pool.countP storing
  underway := pool.countP underway
  spawning := pool.countP spawning
  started := pool.countP started
  stopping := pool.countP stopping
  sending := pool.countP sending
  sent := pool.countP sent
  receivers := pool.countP isReceiver
  received := pool.countP received

/-- At most one `Start` and one `Stop` get past their checks, in this order, and a
`Start` that returned nil has left a receiver, which serves one `Stop`. -/
structure Counts (r : Fields) (t : Tally) : Prop where
  oneStart : t.storing + t.underway + t.started ≤ 1
  oneStop : t.stopping + t.sending + t.sent ≤ 1
  receivers : t.receivers = t.started
  exchanged : t.received = t.sent
  begun : 0 < t.stopping + t.sending + t.sent → 0 < t.started
  fresh : r.state = .initialized → t.underway = 0 ∧ t.started = 0
  stored : r.state ≠ .initialized → t.storing = 0
  running : r.state = .running → t.sending = 0 ∧ t.sent = 0
  stopped : r.state ≠ .running → t.stopping = 0
  channel : r.stopCh = none → t.started = 0 ∧ t.spawning = 0

structure Orderly (s : State) : Prop where
  counts : Counts s.fields (tally s.pool)
  operands : ∀ g ∈ s.pool, ∀ ch, g.channel = some ch → ch = s.fields.stopCh

theorem initial_orderly : Orderly initial := by
  constructor
  · constructor <;> simp [initial, tally]
  · rintro g ⟨⟩

theorem Orderly.call {s : State} (orderly : Orderly s) (entering : g = .start .load ∨ g = .stop .load) :
    Orderly { s with pool := s.pool ++ [g] } := by
  constructor
  · have same : tally (s.pool ++ [g]) = tally s.pool := by
      rcases entering with rfl | rfl <;>
        simp [tally, storing, underway, spawning, started, stopping, sending, sent, isReceiver, received]
    rw [same]
    exact orderly.counts
  · intro h member ch read
    cases List.mem_append.mp member with
    | inl old => exact orderly.operands h old ch read
    | inr new =>
      obtain rfl := List.mem_singleton.mp new
      rcases entering with rfl | rfl <;> cases read

/-- The tally `after` is `before` with `left` taken off and `joined` put on. -/
structure Tally.Exchanged (before left joined after : Tally) : Prop where
  storing : after.storing + left.storing = before.storing + joined.storing
  underway : after.underway + left.underway = before.underway + joined.underway
  spawning : after.spawning + left.spawning = before.spawning + joined.spawning
  started : after.started + left.started = before.started + joined.started
  stopping : after.stopping + left.stopping = before.stopping + joined.stopping
  sending : after.sending + left.sending = before.sending + joined.sending
  sent : after.sent + left.sent = before.sent + joined.sent
  receivers : after.receivers + left.receivers = before.receivers + joined.receivers
  received : after.received + left.received = before.received + joined.received

theorem tally_step {pool : List Goroutine} {i : Nat} (found : pool[i]? = some g) (next : Goroutine)
    (spawned : List Goroutine) :
    (tally pool).Exchanged (tally [g]) (tally (next :: spawned)) (tally (pool.set i next ++ spawned)) := by
  have counted (p : Goroutine → Bool) : (pool.set i next ++ spawned).countP p + [g].countP p =
      pool.countP p + (next :: spawned).countP p := by
    have step := Pool.countP_step p found next spawned
    rw [List.countP_singleton, List.countP_cons]
    omega
  constructor <;> exact counted _

theorem Counts.advance {t t' : Tally} (counts : Counts r t) (advance : Advance r g after next spawned)
    (moved : t.Exchanged (tally [g]) (tally (next :: spawned)) t')
    (first : next = .start .store → t.storing = 0)
    (last : next = .stop .store → 0 < t.started ∧ t.stopping = 0) : Counts after t' := by
  obtain ⟨st, u, sp, sd, sg, se, sn, rc, rd⟩ := moved
  obtain ⟨oneStart, oneStop, receivers, exchanged, begun, fresh, stored, running, stopped, channel⟩ :=
    counts
  cases advance
  all_goals
    dsimp only [tally, storing, underway, spawning, started, stopping, sending, sent, isReceiver, received,
      List.countP, List.countP.go, cond_true, cond_false] at st u sp sd sg se sn rc rd
  case stored =>
    -- The store finds what the check found.
    have initialized : r.state = .initialized := by
      by_contra other
      have := stored other
      omega
    obtain ⟨none, unstarted⟩ := fresh initialized
    have unstopped : t.stopping + t.sending + t.sent = 0 := by omega
    refine ⟨by omega, by omega, by omega, by omega, by omega, ?_, ?_, ?_, ?_, ?_⟩
    · rintro ⟨⟩
    · intro _
      omega
    · intro _
      omega
    · intro other
      exact absurd rfl other
    · intro unmade
      have := channel unmade
      omega
  case stopStored =>
    have stillRunning : r.state = .running := by
      by_contra other
      have := stopped other
      omega
    obtain ⟨unsent, unexchanged⟩ := running stillRunning
    have begunOnce : t.storing = 0 := by omega
    refine ⟨by omega, by omega, by omega, by omega, by omega, ?_, ?_, ?_, ?_, ?_⟩
    · rintro ⟨⟩
    · intro _
      omega
    · rintro ⟨⟩
    · intro _
      omega
    · intro unmade
      have := channel unmade
      omega
  case made =>
    refine ⟨by omega, by omega, by omega, by omega, by omega, ?_, ?_, ?_, ?_, ?_⟩
    · intro initialized
      have := fresh initialized
      omega
    · intro other
      have := stored other
      omega
    · intro still
      have := running still
      omega
    · intro other
      have := stopped other
      omega
    · rintro ⟨⟩
  case passed initialized =>
    have := fresh initialized
    have := first rfl
    refine ⟨by omega, by omega, by omega, by omega, by omega, ?_, ?_, ?_, ?_, ?_⟩
    · intro _
      omega
    · intro other
      exact absurd initialized other
    · intro still
      have := running still
      omega
    · intro other
      have := stopped other
      omega
    · intro unmade
      have := channel unmade
      omega
  case stopPassed still =>
    have := running still
    have := last rfl
    refine ⟨by omega, by omega, by omega, by omega, by omega, ?_, ?_, ?_, ?_, ?_⟩
    · intro initialized
      have := fresh initialized
      omega
    · intro other
      have := stored other
      omega
    · intro _
      omega
    · intro other
      exact absurd still other
    · intro unmade
      have := channel unmade
      omega
  -- the rest only moves a goroutine on
  all_goals
    refine ⟨by omega, by omega, by omega, by omega, by omega, ?_, ?_, ?_, ?_, ?_⟩
    · intro initialized
      have := fresh initialized
      omega
    · intro other
      have := stored other
      omega
    · intro still
      have := running still
      omega
    · intro other
      have := stopped other
      omega
    · intro unmade
      have := channel unmade
      omega

/-- A goroutine that has read the channel is a `Stop` that sends or a receiver. -/
theorem counted_of_channel {g : Goroutine} (read : g.channel = some ch) :
    g.sending = true ∨ g.isReceiver = true := by
  cases g with
  | start pc => cases read
  | stop pc =>
    cases pc with
    | send ch => exact .inl rfl
    | _ => cases read
  | receiver pc => exact .inr rfl

/-- Before a `Start` has returned nil, nobody has read the channel. -/
theorem Orderly.unread {s : State} (orderly : Orderly s) (unstarted : (tally s.pool).started = 0) :
    ∀ g ∈ s.pool, g.channel = none := by
  intro g member
  by_contra read
  obtain ⟨ch, read⟩ := Option.ne_none_iff_exists'.mp read
  have receivers := orderly.counts.receivers
  have begun := orderly.counts.begun
  cases counted_of_channel read with
  | inl sends =>
    have counted : 0 < (tally s.pool).sending := List.countP_pos_iff.mpr ⟨g, member, sends⟩
    omega
  | inr receives =>
    have counted : 0 < (tally s.pool).receivers := List.countP_pos_iff.mpr ⟨g, member, receives⟩
    omega

theorem Orderly.advance {s : State} (orderly : Orderly s) (found : s.pool[i]? = some g)
    (advance : Advance s.fields g r next spawned)
    (first : next = .start .store → (tally s.pool).storing = 0)
    (last : next = .stop .store → 0 < (tally s.pool).started ∧ (tally s.pool).stopping = 0) :
    Orderly ⟨r, s.pool.set i next ++ spawned⟩ := by
  constructor
  · exact orderly.counts.advance advance (tally_step found next spawned) first last
  · have old : ∀ h ∈ s.pool, ∀ ch, h.channel = some ch → ch = r.stopCh := by
      intro h member ch read
      cases advance with
      | made =>
        have underway : 0 < (tally s.pool).underway :=
          List.countP_pos_iff.mpr ⟨_, List.mem_of_getElem? found, rfl⟩
        have oneStart := orderly.counts.oneStart
        rw [orderly.unread (by omega) h member] at read
        cases read
      | _ => exact orderly.operands h member ch read
    apply Pool.forall_step found old (fun _ kept => kept)
    · intro _ ch read
      cases advance <;> cases read <;> rfl
    · intro h member ch read
      cases advance with
      | spawned =>
        obtain rfl := List.mem_singleton.mp member
        cases read
      | _ => cases member

theorem Tally.Exchanged.same {before after : Tally} (exchanged : before.Exchanged part part after) :
    after = before := by
  obtain ⟨st, u, sp, sd, sg, se, sn, rc, rd⟩ := exchanged
  apply Tally.ext <;> omega

theorem Orderly.listen {s : State} (orderly : Orderly s) (found : s.pool[i]? = some (.start .listen))
    (outcome : pc = .makeStopCh ∨ pc = .failed) :
    Orderly { s with pool := s.pool.set i (.start pc) } := by
  have moved := tally_step found (.start pc) []
  rw [List.append_nil] at moved
  constructor
  · have part : tally [.start pc] = tally [.start .listen] := by
      rcases outcome with rfl | rfl <;> rfl
    rw [part] at moved
    rw [moved.same]
    exact orderly.counts
  · intro h member ch read
    cases List.mem_or_eq_of_mem_set member with
    | inl old => exact orderly.operands h old ch read
    | inr new =>
      subst new
      cases read

theorem Counts.exchange {t between t' : Tally} (counts : Counts r t)
    (sends : t.Exchanged (tally [.stop (.send ch)]) (tally [.stop .sent]) between)
    (receives : between.Exchanged (tally [.receiver (.receive ch)]) (tally [.receiver .received]) t') :
    Counts r t' := by
  obtain ⟨st, u, sp, sd, sg, se, sn, rc, rd⟩ := sends
  obtain ⟨st', u', sp', sd', sg', se', sn', rc', rd'⟩ := receives
  obtain ⟨oneStart, oneStop, receivers, exchanged, begun, fresh, stored, running, stopped, channel⟩ :=
    counts
  dsimp only [tally, storing, underway, spawning, started, stopping, sending, sent, isReceiver, received,
    List.countP, List.countP.go, cond_true, cond_false]
    at st u sp sd sg se sn rc rd st' u' sp' sd' sg' se' sn' rc' rd'
  have unmoved : t'.storing = t.storing ∧ t'.underway = t.underway ∧ t'.spawning = t.spawning ∧
      t'.started = t.started ∧ t'.stopping = t.stopping ∧ t'.receivers = t.receivers := by omega
  have moved : t'.sending + 1 = t.sending ∧ t'.sent = t.sent + 1 ∧ t'.received = t.received + 1 := by omega
  obtain ⟨storing, underway, spawning, started, stopping, receiving⟩ := unmoved
  rw [← storing] at oneStart stored
  rw [← underway] at oneStart fresh
  rw [← started] at oneStart receivers begun fresh channel
  rw [← stopping] at oneStop begun stopped
  rw [← receiving] at receivers
  rw [← spawning] at channel
  refine ⟨oneStart, by omega, receivers, by omega, by omega, fresh, stored, ?_, stopped, channel⟩
  intro still
  have := running still
  omega

theorem Orderly.exchange {s : State} (orderly : Orderly s)
    (sends : s.pool[i]? = some (.stop (.send (some ch))))
    (receives : s.pool[j]? = some (.receiver (.receive (some ch)))) :
    Orderly { s with pool := (s.pool.set i (.stop .sent)).set j (.receiver .received) } := by
  have apart : i ≠ j := by
    rintro rfl
    rw [sends] at receives
    cases receives
  have sent := tally_step sends (.stop .sent) []
  rw [List.append_nil] at sent
  have waits : (s.pool.set i (.stop .sent))[j]? = some (.receiver (.receive (some ch))) := by
    rw [List.getElem?_set_ne apart]
    exact receives
  have received := tally_step waits (.receiver .received) []
  rw [List.append_nil] at received
  constructor
  · exact orderly.counts.exchange sent received
  · intro h member other read
    cases List.mem_or_eq_of_mem_set member with
    | inl before =>
      cases List.mem_or_eq_of_mem_set before with
      | inl old => exact orderly.operands h old other read
      | inr new =>
        subst new
        cases read
    | inr new =>
      subst new
      cases read

/-- What the check of a `Start` finds in a sequenced run. -/
theorem sequenced_start {s : State} (allowed : sequenced s (.step i))
    (found : s.pool[i]? = some (.start .load)) (fresh : s.fields.state = .initialized) :
    (tally s.pool).storing = 0 := by
  simp only [sequenced, found, fresh, ne_eq, not_true_eq_false, decide_false, Bool.false_or,
    List.all_eq_true, Bool.not_eq_true'] at allowed
  apply List.countP_eq_zero.mpr
  intro g member
  rw [allowed g member]
  decide

/-- What the check of a `Stop` finds in a sequenced run. -/
theorem sequenced_stop {s : State} (allowed : sequenced s (.step i)) (found : s.pool[i]? = some (.stop .load))
    (running : s.fields.state = .running) :
    0 < (tally s.pool).started ∧ (tally s.pool).stopping = 0 := by
  simp only [sequenced, found, running, ne_eq, not_true_eq_false, decide_false, Bool.false_or,
    Bool.and_eq_true, List.any_eq_true, List.all_eq_true, Bool.not_eq_true'] at allowed
  obtain ⟨begun, alone⟩ := allowed
  constructor
  · exact List.countP_pos_iff.mpr begun
  · apply List.countP_eq_zero.mpr
    intro g member
    rw [alone g member]
    decide

theorem Orderly.step {s t : State} (orderly : Orderly s) (allowed : sequenced s label)
    (stepped : s.step label = some t) : Orderly t := by
  cases step_move stepped with
  | call entering external => exact orderly.call entering
  | listen found outcome => exact orderly.listen found outcome
  | exchange sends receives => exact orderly.exchange sends receives
  | advance found advance =>
    apply orderly.advance found advance
    · rintro rfl
      cases advance with
      | passed fresh => exact sequenced_start allowed found fresh
    · rintro rfl
      cases advance with
      | stopPassed running => exact sequenced_stop allowed found running

/-- Every `Stop` that sends on `stopCh` has a receiver, which waits for its value or is
about to. -/
def State.Served (s : State) : Prop :=
  ∀ ch, .stop (.send ch) ∈ s.pool → ch.isSome ∧
    (.receiver (.receive ch) ∈ s.pool ∨ .receiver .operand ∈ s.pool ∧ s.fields.stopCh = ch)

theorem Orderly.served {s : State} (orderly : Orderly s) : s.Served := by
  intro ch sends
  have read := orderly.operands _ sends ch rfl
  have counted : 0 < (tally s.pool).sending := List.countP_pos_iff.mpr ⟨_, sends, rfl⟩
  obtain ⟨oneStart, oneStop, receivers, exchanged, begun, fresh, stored, running, stopped, channel⟩ :=
    orderly.counts
  constructor
  · cases ch with
    | none =>
      have := channel read.symm
      omega
    | some ch => rfl
  · -- There are more receivers than received values.
    have more : s.pool.countP received < s.pool.countP isReceiver := by
      change (tally s.pool).received < (tally s.pool).receivers
      omega
    obtain ⟨g, member, receives, waits⟩ : ∃ g ∈ s.pool, g.isReceiver = true ∧ g.received = false := by
      by_contra none
      apply Nat.not_le_of_lt more
      apply List.countP_mono_left
      intro g member receives
      by_contra waits
      exact none ⟨g, member, receives, Bool.eq_false_of_not_eq_true waits⟩
    cases g with
    | start pc => cases receives
    | stop pc => cases receives
    | receiver pc =>
      cases pc with
      | operand => exact .inr ⟨member, read.symm⟩
      | receive other =>
        obtain rfl := orderly.operands _ member other rfl
        rw [read]
        exact .inl member
      | received => cases waits

/-- Nobody who is served waits when nobody can go on. -/
theorem State.Served.quiescent {s : State} (served : s.Served) (stuck : s.Stuck) :
    ∀ ch, .stop (.send ch) ∉ s.pool := by
  intro ch sends
  obtain ⟨i, sends'⟩ := List.mem_iff_getElem?.mp sends
  obtain ⟨some, waits⟩ := served ch sends
  cases waits with
  | inl receives =>
    obtain ⟨j, receives'⟩ := List.mem_iff_getElem?.mp receives
    obtain ⟨c, rfl⟩ := Option.isSome_iff_exists.mp some
    have blocked := stuck (.exchange i j) rfl
    simp [State.step, sends', receives'] at blocked
  | inr operand =>
    obtain ⟨j, reads⟩ := List.mem_iff_getElem?.mp operand.1
    have blocked := stuck (.step j) rfl
    simp [State.step, reads, Fields.act] at blocked

/-- When the checks of the calls are sequenced, at most one `Start` returns nil and no
`Stop` is left blocked. -/
theorem sequenced_calls_safe {s : State}
    (reached : Reaches (restrict sequenced State.step) initial s) :
    s.pool.countP started ≤ 1 ∧ s.Served ∧ (s.Stuck → ∀ ch, .stop (.send ch) ∉ s.pool) := by
  have orderly : Orderly s := by
    apply reached.invariant (P := Orderly) _ initial_orderly
    intro s label t orderly stepped
    obtain ⟨allowed, stepped⟩ := restrict_some stepped
    exact orderly.step allowed stepped
  have oneStart := orderly.counts.oneStart
  refine ⟨?_, orderly.served, orderly.served.quiescent⟩
  change (tally s.pool).started ≤ 1
  omega

/-- A `Start` that returns nil, a second one that is refused, and a `Stop` that sends. -/
def startThenStop : List Label :=
  [.start, .step 0, .step 0, .listen 0 true, .step 0, .step 0, .start, .step 2, .stop, .step 3, .step 3,
    .step 3]

theorem sequenced_calls_safe_reached :
    ∃ s : State, .stop (.send (some 0)) ∈ s.pool ∧
      s.pool.countP started = 1 ∧ s.pool.countP started ≤ 1 ∧
      s.Served ∧ (s.Stuck → ∀ ch, .stop (.send ch) ∉ s.pool) := by
  obtain ⟨s, reached, ends⟩ := exists_of_run (restrict sequenced State.step)
    initial startThenStop
    (fun s => .stop (.send (some 0)) ∈ s.pool ∧ s.pool.countP started = 1) (by decide +kernel)
  obtain ⟨sends, one⟩ := of_decide_eq_true ends
  exact ⟨s, sends, one, sequenced_calls_safe reached⟩

/-- The address is taken, so `Start` returns an error; the remote is stopped all the same. -/
def stopAfterFailedStart : List Label :=
  [.start, .step 0, .step 0, .listen 0 false, .stop, .step 1, .step 1, .step 1]

/-- Both calls find the remote initialized. -/
def twoStarts : List Label :=
  [.start, .start, .step 0, .step 1, .step 0, .step 1, .listen 0 true, .listen 1 true, .step 0, .step 1,
    .step 0, .step 1]

/-- A `Stop` on a channel that was never made has nobody to go on with. -/
theorem nil_channel_stuck (r : Fields) : State.Stuck ⟨r, [.start .failed, .stop (.send none)]⟩ := by
  intro label internal
  cases label with
  | start => cases internal
  | stop => cases internal
  | step i =>
    match i with
    | 0 | 1 | _ + 2 => rfl
  | listen i ok =>
    match i with
    | 0 | 1 | _ + 2 => rfl
  | exchange i j =>
    match i with
    | 0 | 1 | _ + 2 => rfl

/-- `Start` stores `running` before it listens and does not take it back, so a later
`Stop` waits on the nil channel forever; and two calls of `Start` may both return nil. -/
theorem stop_blocked_after_failed_start :
    (∃ s, Reaches State.step initial s ∧ s.Stuck ∧ .start .failed ∈ s.pool ∧
      .stop (.send none) ∈ s.pool) ∧
    ∃ s, Reaches State.step initial s ∧ s.pool.countP started = 2 := by
  constructor
  · obtain ⟨s, reached, ends⟩ := exists_of_run State.step initial stopAfterFailedStart
      (fun s => s = ⟨⟨.stopped, none, 0⟩, [.start .failed, .stop (.send none)]⟩) (by decide +kernel)
    obtain rfl := of_decide_eq_true ends
    exact ⟨_, reached, nil_channel_stuck _, by decide, by decide⟩
  · obtain ⟨s, reached, ends⟩ := exists_of_run State.step initial twoStarts
      (fun s => s.pool.countP started = 2) (by decide +kernel)
    exact ⟨s, reached, of_decide_eq_true ends⟩

end Hollywood.Remote.Listening
