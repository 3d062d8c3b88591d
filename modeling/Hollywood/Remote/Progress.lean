import Hollywood.Foundation.Inevitable
import Hollywood.Remote.Delivery
import Mathlib.Data.Finset.Card
import Mathlib.Data.Finset.Range

/-! The transport comes to rest. Once the router is given nothing more and no connection is
lost but by the node itself, its goroutine, those that shut writers down and the workers of
the inboxes finish in whatever order they run, and then every message is accounted for. -/
namespace Hollywood.Remote
open Transition
variable {P : Type}

/-- What the goroutines of the node do by themselves. -/
def TransportLabel.moves : TransportLabel P → Prop
  | .route (.deliver _) | .route (.lose _) => False
  | _ => True

/-! What is left to do: a message in the router's mailbox may still need a new writer, with
its `Start` and its `Shutdown`. -/

def RouterMsg.ahead : RouterMsg P → Nat
  | .streamDeliver _ => 18
  | .remoteUnreachable _ => 1

def RouterPc.ahead : RouterPc P → Nat
  | .receive | .panicked _ => 0
  | .send _ _ => 5
  | .store _ _ => 6
  | .shutdown _ _ => 7
  | .init _ _ => 15
  | .start _ _ => 16
  | .add _ _ => 17

def ShutdownPc.ahead : ShutdownPc → Nat
  | .notify => 6
  | .broadcast => 4
  | .closeStream => 3
  | .stopInbox => 2
  | .remove => 1

def Phase.ahead : Phase → Nat
  | .created | .running | .stopped => 0
  | .watched => 7
  | .shutdown pc => pc.ahead

def StreamWriter.ahead (w : StreamWriter P) : Nat := w.phase.ahead + 3 * w.inbox.length

def Worker.ahead (g : Worker P) : Nat :=
  match g.pc with
  | .invoke _ => 1
  | .load | .popN | .done => 0

/-- The steps of a worker before it takes a batch. -/
def Worker.steps (g : Worker P) : Nat :=
  match g.pc with
  | .load => 2
  | .popN => 1
  | .invoke _ | .done => 0

namespace Routing

def ahead (s : Routing P) : Nat :=
  (s.mailbox.map RouterMsg.ahead).sum + s.router.ahead + (s.writers.map StreamWriter.ahead).sum

theorem ahead_modify (s : Routing P) (writer : Nat) (change : StreamWriter P → StreamWriter P) (extra : Nat)
    (bound : ∀ w, (change w).ahead ≤ w.ahead + extra) :
    ((s.writers.modify writer change).map StreamWriter.ahead).sum ≤ (s.writers.map StreamWriter.ahead).sum + extra := by
  rw [List.modify_eq_set_getElem?]
  cases found : s.writers[writer]? with
  | none => exact Nat.le_add_right _ _
  | some w =>
    have changed := Pool.sum_set StreamWriter.ahead found (change w)
    have little := bound w
    simp only [Option.map_eq_map, Option.map_some, Option.getD_some]
    omega

theorem ahead_phase {s : Routing P} (found : s.writers[writer]? = some w)
    (change : StreamWriter P → StreamWriter P) (inbox : (change w).inbox = w.inbox) :
    ((s.writers.modify writer change).map StreamWriter.ahead).sum + w.phase.ahead =
      (s.writers.map StreamWriter.ahead).sum + (change w).phase.ahead := by
  have changed := Pool.sum_set StreamWriter.ahead found (change w)
  rw [List.modify_eq_set_getElem?, found]
  simp only [Option.map_eq_map, Option.map_some, Option.getD_some]
  simp only [StreamWriter.ahead, inbox] at changed ⊢
  omega

theorem phase_lowers {s : Routing P} (found : s.writers[writer]? = some w) (change : StreamWriter P → StreamWriter P)
    (inbox : (change w).inbox = w.inbox) (less : (change w).phase.ahead < w.phase.ahead) :
    (s.modify writer change).ahead < s.ahead := by
  have changed := ahead_phase found change inbox
  simp only [ahead, modify]
  omega

theorem shutdown_lowers {s : Routing P} (found : s.writers[writer]? = some w) (phase : w.phase = .shutdown pc) :
    (s.shutdown writer w pc).ahead < s.ahead := by
  cases pc with
  | notify =>
    have next := ahead_phase found (fun w => { w with phase := .shutdown .broadcast }) rfl
    rw [phase] at next
    simp only [Phase.ahead, ShutdownPc.ahead] at next
    simp only [ahead, shutdown, modify, List.map_append, List.sum_append, List.map_cons, List.map_nil, List.sum_cons,
      List.sum_nil, RouterMsg.ahead]
    omega
  | broadcast | closeStream | stopInbox | remove =>
    exact phase_lowers found _ rfl (by simp [phase, Phase.ahead, ShutdownPc.ahead])

/-- Every step of the router and of `Shutdown` leaves less to do. -/
theorem Move.lowers {s t : Routing P} (move : Move s label t) (moves : TransportLabel.moves (.route label))
    (misses : label = .router → s.lookup = none) : t.ahead < s.ahead := by
  have changed := ahead_modify s
  cases move with
  | deliver | lose => cases moves
  | terminate position mail | known position mail entry =>
    simp only [ahead, handleTerminateStream, mail, position, List.map_cons, List.sum_cons, RouterMsg.ahead,
      RouterPc.ahead]
    omega
  | create position mail missing =>
    simp only [ahead, mail, position, List.map_cons, List.map_append, List.map_nil, List.sum_append, List.sum_cons,
      List.sum_nil, RouterMsg.ahead, RouterPc.ahead, StreamWriter.ahead, newStreamWriter, Phase.ahead, List.length_nil]
    omega
  | duplicate position | add position | stopped position | store position | crash position
  | restart position | deadline position | deadLetter position =>
    simp only [ahead, position, RouterPc.ahead]
    omega
  | send position found => cases (lookup_send position found).symm.trans (misses rfl)
  | @start stream writer position =>
    have next := changed writer (fun w => { w with started := true, phase := .running }) 0 fun w => by
      simp [StreamWriter.ahead, Phase.ahead]
    simp only [ahead, modify, position, RouterPc.ahead]
    omega
  | @fail stream writer dial position =>
    have next := changed writer (fun w => { w with phase := .shutdown .notify }) 6 fun w => by
      simp only [StreamWriter.ahead, Phase.ahead, ShutdownPc.ahead]
      omega
    simp only [ahead, modify, position, RouterPc.ahead]
    omega
  | @connect stream writer dial position =>
    have next := changed writer (fun w => { w with connected := true, phase := .watched }) 7 fun w => by
      simp only [StreamWriter.ahead, Phase.ahead]
      omega
    simp only [ahead, modify, position, RouterPc.ahead]
    omega
  | closed found watched =>
    exact phase_lowers found _ rfl (by simp [watched, Phase.ahead, ShutdownPc.ahead])
  | shutdown found phase => exact shutdown_lowers found phase

end Routing

namespace Transport

def ahead (s : Transport P) : Nat :=
  s.routing.ahead + s.calling.elim 1 (fun _ => 0) + (s.workers.map Worker.ahead).sum

/-- A worker is due for the writer's inbox. -/
def due (s : Transport P) (writer : Nat) : Bool :=
  s.routing.writers[writer]?.any (fun w => w.started && !w.inbox.isEmpty) && !s.busy writer

def dues (s : Transport P) : Finset Nat := (Finset.range s.routing.writers.length).filter (s.due · = true)

/-- Between two steps that leave less to do, workers are made, look and leave. -/
def rank (s : Transport P) : Nat ×ₗ Nat := toLex (s.ahead, 3 * s.dues.card + (s.workers.map Worker.steps).sum)

theorem rank_of_ahead {s t : Transport P} (less : t.ahead < s.ahead) : t.rank < s.rank :=
  Prod.Lex.toLex_lt_toLex.mpr (.inl less)

theorem rank_of_steps {s t : Transport P} (same : t.ahead = s.ahead)
    (less : 3 * t.dues.card + (t.workers.map Worker.steps).sum < 3 * s.dues.card + (s.workers.map Worker.steps).sum) :
    t.rank < s.rank := Prod.Lex.toLex_lt_toLex.mpr (.inr ⟨same, less⟩)

theorem due_iff (s : Transport P) (writer : Nat) :
    s.due writer = true ↔ (∃ w, s.routing.writers[writer]? = some w ∧ w.started = true ∧ w.inbox ≠ []) ∧
      s.busy writer = false := by
  simp only [due, Bool.and_eq_true, Option.any_eq_true, Bool.not_eq_true', List.isEmpty_eq_false_iff]

theorem due_of_busier {s t : Transport P} (due : t.due writer = true) (routing : t.routing = s.routing)
    (busier : s.busy writer = true → t.busy writer = true) : s.due writer = true := by
  obtain ⟨waits, free⟩ := (due_iff t writer).mp due
  rw [routing] at waits
  refine (due_iff s writer).mpr ⟨waits, ?_⟩
  by_contra busy
  rw [busier (Bool.eq_true_of_not_eq_false busy)] at free
  cases free

theorem dues_le {s t : Transport P} (routing : t.routing = s.routing)
    (fewer : ∀ writer, t.due writer = true → s.due writer = true) : t.dues.card ≤ s.dues.card := by
  apply Finset.card_le_card
  intro writer member
  simp only [dues, Finset.mem_filter, routing] at member ⊢
  exact ⟨member.1, fewer writer member.2⟩

/-- The inbox that gets a worker was due for one. -/
theorem schedule_lowers {s t : Transport P} (stepped : s.step (.schedule writer) = some t) : t.rank < s.rank := by
  obtain ⟨waits, free⟩ := Ledger.schedule_free stepped
  have here : writer ∈ s.dues := by
    obtain ⟨w, found, -⟩ := id waits
    simp only [dues, Finset.mem_filter, Finset.mem_range]
    exact ⟨(List.getElem?_eq_some_iff.mp found).1, (due_iff s writer).mpr ⟨waits, free⟩⟩
  cases step_move stepped with
  | schedule =>
    have served : busy { s with workers := s.workers ++ [⟨writer, .load⟩] } writer = true := by
      simp [busy, Worker.running]
    have busier : ∀ other, s.busy other = true → busy { s with workers := s.workers ++ [⟨writer, .load⟩] } other := by
      intro other busy
      rw [Transport.busy, List.any_append]
      exact Bool.or_eq_true_iff.mpr (.inl busy)
    have fewer : dues { s with workers := s.workers ++ [⟨writer, .load⟩] } ⊆ s.dues.erase writer := by
      intro other member
      obtain ⟨inside, due⟩ := Finset.mem_filter.mp member
      refine Finset.mem_erase.mpr ⟨?_, Finset.mem_filter.mpr ⟨inside, due_of_busier due rfl (busier other)⟩⟩
      rintro rfl
      rw [((due_iff _ other).mp due).2] at served
      cases served
    refine rank_of_steps (by simp [ahead, Worker.ahead]) ?_
    have count := Finset.card_le_card fewer
    have positive := Finset.card_pos.mpr ⟨writer, here⟩
    rw [Finset.card_erase_of_mem here] at count
    simp only [List.map_append, List.sum_append, List.map_cons, List.map_nil, List.sum_cons, List.sum_nil,
      Worker.steps]
    omega

/-- What a worker does before `Invoke`. -/
theorem work_cases {s t : Transport P} {k : Nat} (worked : s.work k g w = some t) :
    (g.pc = .load ∧ t = s.turn k g .popN) ∨
      ((g.pc = .load ∨ g.pc = .popN) ∧ (w.started = false ∨ w.inbox = []) ∧ t = s.turn k g .done) ∨
      (g.pc = .popN ∧ w.inbox ≠ [] ∧ t = { s.turn k g (.invoke (w.inbox.take messageBatchSize)) with
        routing := s.routing.modify g.writer fun w => { w with inbox := w.inbox.drop messageBatchSize } }) := by
  unfold work at worked
  split at worked
  · rename_i position
    split at worked
    · cases worked
      exact .inl ⟨position, rfl⟩
    · rename_i stopped
      cases worked
      exact .inr (.inl ⟨.inl position, .inl (Bool.eq_false_of_not_eq_true stopped), rfl⟩)
  · rename_i position
    split at worked
    · rename_i empty
      cases worked
      exact .inr (.inl ⟨.inr position, .inr (List.isEmpty_iff.mp empty), rfl⟩)
    · rename_i filled
      cases worked
      exact .inr (.inr ⟨position, by simpa using filled, rfl⟩)
  · cases worked
  · cases worked

theorem ahead_turn {s : Transport P} (found : s.workers[k]? = some g) (pc : WorkerPc P) :
    (s.turn k g pc).ahead + g.ahead = s.ahead + Worker.ahead { g with pc := pc } := by
  have turned := Pool.sum_set Worker.ahead found { g with pc := pc }
  simp only [ahead, turn]
  omega

theorem steps_turn {s : Transport P} (found : s.workers[k]? = some g) (pc : WorkerPc P) :
    ((s.turn k g pc).workers.map Worker.steps).sum + g.steps = (s.workers.map Worker.steps).sum +
      Worker.steps { g with pc := pc } := Pool.sum_set Worker.steps found { g with pc := pc }

theorem ahead_routing (s : Transport P) (routing : Routing P) :
    ahead { s with routing := routing } + s.routing.ahead = s.ahead + routing.ahead := by
  simp only [ahead]
  omega

theorem ahead_drop {s : Routing P} (present : s.writers[writer]? = some w) (filled : w.inbox ≠ []) :
    (s.modify writer fun w => { w with inbox := w.inbox.drop messageBatchSize }).ahead + 2 ≤ s.ahead := by
  have emptied := Pool.sum_set StreamWriter.ahead present { w with inbox := w.inbox.drop messageBatchSize }
  have size : 0 < w.inbox.length := List.length_pos_iff.mpr filled
  simp only [StreamWriter.ahead, List.length_drop, messageBatchSize] at emptied
  simp only [Routing.ahead, Routing.modify, List.modify_eq_set_getElem?, present]
  simp only [Option.map_eq_map, Option.map_some, Option.getD_some, messageBatchSize]
  omega

theorem work_lowers {s t : Transport P} {k : Nat} (found : s.workers[k]? = some g)
    (present : s.routing.writers[g.writer]? = some w) (worked : s.work k g w = some t) : t.rank < s.rank := by
  rcases work_cases worked with ⟨position, rfl⟩ | ⟨position, ended, rfl⟩ | ⟨position, filled, rfl⟩
  · have dues : (s.turn k g .popN).dues.card ≤ s.dues.card := by
      refine dues_le rfl fun writer due => due_of_busier due rfl fun busy => ?_
      simp only [Transport.busy, List.any_eq_true, Bool.and_eq_true, decide_eq_true_eq] at busy ⊢
      exact Pool.exists_set found (fun held => ⟨held.1, rfl⟩) busy
    have same := ahead_turn found .popN
    have fewer := steps_turn found .popN
    simp only [Worker.ahead, Worker.steps, position] at same fewer
    exact rank_of_steps same (by omega)
  · -- the worker leaves an inbox that is stopped or empty, for which none is due
    have dues : (s.turn k g .done).dues.card ≤ s.dues.card := by
      refine dues_le rfl fun writer due => ?_
      obtain ⟨⟨other, here, started, filled⟩, -⟩ := (due_iff _ writer).mp due
      refine due_of_busier due rfl fun busy => ?_
      simp only [Transport.busy, List.any_eq_true, Bool.and_eq_true, decide_eq_true_eq] at busy ⊢
      have kept : ∃ h ∈ s.workers.set k { g with pc := .done } ++ [], h.writer = writer ∧ h.running = true := by
        refine Pool.exists_kept found busy ?_
        rintro ⟨rfl, -⟩
        cases present.symm.trans here
        rcases ended with stopped | empty
        · rw [started] at stopped
          cases stopped
        · exact filled empty
      rwa [List.append_nil] at kept
    have same := ahead_turn found .done
    have fewer := steps_turn found .done
    rcases position with position | position
    · simp only [Worker.ahead, Worker.steps, position] at same fewer
      exact rank_of_steps same (by omega)
    · simp only [Worker.ahead, Worker.steps, position] at same fewer
      exact rank_of_steps same (by omega)
  · have taken := ahead_turn found (.invoke (w.inbox.take messageBatchSize))
    have drained := ahead_drop present filled
    have routed := ahead_routing (s.turn k g (.invoke (w.inbox.take messageBatchSize)))
      (s.routing.modify g.writer fun w => { w with inbox := w.inbox.drop messageBatchSize })
    simp only [Worker.ahead, position] at taken
    have unmoved : (s.turn k g (.invoke (w.inbox.take messageBatchSize))).routing = s.routing := rfl
    rw [unmoved] at routed
    apply rank_of_ahead
    dsimp only
    omega

theorem rank_lowers {s t : Transport P} (stepped : s.step label = some t) (moves : label.moves) : t.rank < s.rank := by
  cases label with
  | route label =>
    cases step_move stepped with
    | route free move =>
      have less := move.lowers moves (free_misses free)
      apply rank_of_ahead
      simp only [ahead]
      omega
  | get =>
    simp only [step] at stepped
    split at stepped
    · cases stepped
    · rename_i calling
      simp only [Option.bind_eq_bind, Option.bind_eq_some_iff, Option.pure_def, Option.some.injEq] at stepped
      obtain ⟨writer, -, rfl⟩ := stepped
      apply rank_of_ahead
      simp [ahead, calling]
  | push =>
    cases step_move stepped with
    | @push writer stream swpid calling position =>
      have pushed := Routing.ahead_modify s.routing writer (fun w => { w with inbox := w.inbox ++ [stream] }) 3
        fun w => by
          simp only [StreamWriter.ahead, List.length_append, List.length_singleton]
          omega
      apply rank_of_ahead
      simp only [ahead, Transport.push, Routing.ahead, Routing.modify, calling, position, RouterPc.ahead,
        Option.elim_none, Option.elim_some]
      omega
  | schedule writer => exact schedule_lowers stepped
  | worker k =>
    simp only [step, Option.bind_eq_bind, Option.bind_eq_some_iff] at stepped
    obtain ⟨g, found, w, present, worked⟩ := stepped
    exact work_lowers found present worked
  | send k result =>
    apply rank_of_ahead
    cases step_move stepped with
    | sent found position =>
      have taken := ahead_turn found .load
      simp only [Worker.ahead, position] at taken
      change (s.turn _ _ _).ahead < _
      omega
    | @ended k g msgs found position =>
      have taken := ahead_turn found .load
      have same := Routing.ahead_modify s.routing g.writer (fun w => { w with closed := true }) 0
        fun w => Nat.le_refl _
      simp only [Worker.ahead, position] at taken
      simp only [ahead, pack, turn, Routing.ahead, Routing.modify] at taken ⊢
      omega
    | failed found position =>
      have taken := ahead_turn found .load
      simp only [Worker.ahead, position] at taken
      change (s.turn _ _ _).ahead < _
      omega

end Transport

namespace Routing

/-- The router waits only for a writer that is within `Shutdown` or through with it. -/
def Leaving (s : Routing P) : Prop :=
  ∀ stream writer, s.router = .shutdown stream writer →
    ∃ w, s.writers[writer]? = some w ∧ (w.phase = .stopped ∨ ∃ pc, w.phase = .shutdown pc)

theorem writer_found {s : Routing P} {stream : StreamDeliver P} (writes : Writes s.titles writer stream) :
    ∃ w, s.writers[writer]? = some w := by
  obtain ⟨pid, title⟩ := writes
  rw [titles, List.getElem?_map, Option.map_eq_some_iff] at title
  obtain ⟨w, found, -⟩ := title
  exact ⟨w, found⟩

theorem Leaving.modify {s t : Routing P} (leaving : s.Leaving) {change : StreamWriter P → StreamWriter P}
    (router : t.router = s.router) (writers : t.writers = s.writers.modify writer change)
    (phases : ∀ w, (change w).phase = w.phase ∨ (change w).phase = .stopped ∨ ∃ pc, (change w).phase = .shutdown pc) :
    t.Leaving := by
  intro stream other position
  obtain ⟨w, found, gone⟩ := leaving stream other (router ▸ position)
  refine ⟨_, by rw [writers, found_modify found], ?_⟩
  split
  · rcases phases w with same | ends
    · rw [same]
      exact gone
    · exact ends
  · exact gone

theorem Move.leaving {s t : Routing P} (titled : s.Titled) (leaving : s.Leaving) (move : Move s label t) :
    t.Leaving := by
  cases move with
  | deliver => exact leaving
  | terminate position =>
    intro stream writer other
    cases position.symm.trans other
  | fail position =>
    have aimed := titled.aimed
    rw [position] at aimed
    obtain ⟨w, found⟩ := writer_found aimed
    rintro stream writer ⟨⟩
    refine ⟨_, found_modify found _ _, ?_⟩
    rw [if_pos rfl]
    exact .inr ⟨.notify, rfl⟩
  | lose | closed => exact leaving.modify rfl rfl fun _ => .inr (.inr ⟨.notify, rfl⟩)
  | @shutdown writer w pc =>
    cases pc with
    | notify => exact leaving.modify rfl rfl fun _ => .inr (.inr ⟨.broadcast, rfl⟩)
    | broadcast => exact leaving.modify rfl rfl fun _ => .inr (.inr ⟨.closeStream, rfl⟩)
    | closeStream => exact leaving.modify rfl rfl fun _ => .inr (.inr ⟨.stopInbox, rfl⟩)
    | stopInbox => exact leaving.modify rfl rfl fun _ => .inr (.inr ⟨.remove, rfl⟩)
    | remove => exact leaving.modify rfl rfl fun _ => .inr (.inl rfl)
  | _ => rintro stream writer ⟨⟩

end Routing

namespace Transport

structure Manned (s : Transport P) : Prop where
  directed : Ledger.Directed s
  calls : ∀ writer, s.calling = some writer → ∃ stream swpid, s.routing.router = .send stream swpid
  hired : ∀ g ∈ s.workers, g.writer < s.routing.writers.length
  leaving : s.routing.Leaving

theorem initial_manned (engine : String) (tls : Bool) (serializer : Serializer P) :
    (initial engine tls serializer).Manned := by
  refine ⟨(Ledger.initial_inOrder engine tls serializer).directed, ?_, ?_, ?_⟩
  · rintro writer ⟨⟩
  · rintro g ⟨⟩
  · rintro stream writer ⟨⟩

theorem Manned.step {s t : Transport P} (manned : s.Manned) (stepped : s.step label = some t) : t.Manned := by
  have directed := Ledger.directed_move manned.directed (step_move stepped)
  have turned : ∀ {k : Nat} {g : Worker P} {pc : WorkerPc P}, s.workers[k]? = some g →
      ∀ h ∈ s.workers.set k { g with pc := pc }, h.writer < s.routing.writers.length := by
    intro k g pc found h member
    rcases List.mem_or_eq_of_mem_set member with old | rfl
    · exact manned.hired h old
    · exact manned.hired g (List.mem_of_getElem? found)
  cases step_move stepped with
  | @route label r free move =>
    refine ⟨directed, ?_, ?_, move.leaving manned.directed.titled manned.leaving⟩
    · intro writer calling
      obtain ⟨stream, swpid, position⟩ := manned.calls writer calling
      have other : label ≠ .router := by
        rintro rfl
        rw [Transport.free, calling, Option.isNone_some, Bool.and_false] at free
        cases free
      exact ⟨stream, swpid, (move.sending_iff other).mpr position⟩
    · intro g member
      exact Nat.lt_of_lt_of_le (manned.hired g member) move.longer
  | get found =>
    refine ⟨directed, ?_, manned.hired, manned.leaving⟩
    intro writer calling
    unfold Routing.lookup at found
    split at found
    · rename_i stream swpid position
      exact ⟨stream, swpid, position⟩
    · cases found
  | push =>
    refine ⟨directed, ?_, ?_, ?_⟩
    · rintro _ ⟨⟩
    · intro g member
      simpa [Transport.push, Routing.modify] using manned.hired g member
    · rintro stream writer ⟨⟩
  | @schedule writer =>
    obtain ⟨⟨w, found, -⟩, -⟩ := Ledger.schedule_free stepped
    refine ⟨directed, manned.calls, ?_, manned.leaving⟩
    intro g member
    rcases List.mem_append.mp member with old | new
    · exact manned.hired g old
    · rw [List.mem_singleton.mp new]
      exact (List.getElem?_eq_some_iff.mp found).1
  | popped found present position =>
    refine ⟨directed, manned.calls, ?_, manned.leaving.modify rfl rfl fun _ => .inl rfl⟩
    intro g member
    simpa [Routing.modify] using turned found g member
  | ended found position =>
    refine ⟨directed, manned.calls, ?_, manned.leaving.modify rfl rfl fun _ => .inl rfl⟩
    intro g member
    simpa [Routing.modify] using turned found g member
  | loaded found | left found | sent found | failed found =>
    exact ⟨directed, manned.calls, turned found, manned.leaving⟩

/-- A panic ends the program: a worker is about to call `Send` of a stream that its writer
does not have, or the router has no restart left. -/
def Crashing (s : Transport P) : Prop :=
  (∃ g ∈ s.workers, ∃ msgs w, g.pc = .invoke msgs ∧ s.routing.writers[g.writer]? = some w ∧ w.phase = .running) ∨
    ∃ stream, s.routing.router = .panicked stream

section Stuck
variable {s : Transport P} (manned : s.Manned) (stuck : Stuck step TransportLabel.moves s)
  (sane : ¬ s.Crashing)
include manned stuck sane

theorem stuck_router : s.routing.router = .receive ∧ s.routing.mailbox = [] := by
  have idle := stuck (.route .router) trivial
  have aimed := manned.directed.titled.aimed
  have uncalled : (∀ stream swpid, s.routing.router ≠ .send stream swpid) → s.calling = none := by
    intro other
    cases calling : s.calling with
    | none => rfl
    | some writer =>
      obtain ⟨stream, swpid, position⟩ := manned.calls writer calling
      exact absurd position (other stream swpid)
  cases position : s.routing.router with
  | receive =>
    have calling := uncalled (by simp [position])
    refine ⟨rfl, ?_⟩
    cases mail : s.routing.mailbox with
    | nil => rfl
    | cons message rest =>
      cases message <;>
        simp [step, free, Routing.lookup, Routing.step, Routing.advance, Routing.receive, position, calling, mail] at idle
  | add stream writer | store stream writer =>
    have calling := uncalled (by simp [position])
    rw [position] at aimed
    obtain ⟨w, found⟩ := Routing.writer_found aimed
    simp [step, free, Routing.lookup, Routing.step, Routing.advance, position, calling, found] at idle
  | start stream writer =>
    have calling := uncalled (by simp [position])
    simp [step, free, Routing.lookup, Routing.step, Routing.advance, position, calling] at idle
  | init stream writer =>
    have dials := stuck (.route (.init .deadline)) trivial
    simp [step, free, Routing.step, Routing.init, position] at dials
  | shutdown stream writer =>
    have calling := uncalled (by simp [position])
    obtain ⟨w, found, stopped | ⟨pc, phase⟩⟩ := manned.leaving stream writer position
    · simp [step, free, Routing.lookup, Routing.step, Routing.advance, position, calling, found, stopped] at idle
    · have shuts := stuck (.route (.shutdown writer)) trivial
      simp [step, free, Routing.step, found, phase] at shuts
  | send stream swpid =>
    cases calling : s.calling with
    | some writer =>
      have pushes := stuck .push trivial
      simp [step, calling, position] at pushes
    | none =>
      cases entry : s.routing.registry swpid.id with
      | some writer =>
        have gets := stuck .get trivial
        simp [step, calling, Routing.lookup, position, entry] at gets
      | none =>
        simp [step, free, Routing.lookup, Routing.step, Routing.advance, position, calling, entry] at idle
  | panicked stream => exact absurd (.inr ⟨stream, position⟩) sane

theorem stuck_workers : ∀ g ∈ s.workers, g.pc = .done := by
  intro g member
  obtain ⟨k, found⟩ := List.mem_iff_getElem?.mp member
  obtain ⟨w, present⟩ : ∃ w, s.routing.writers[g.writer]? = some w :=
    ⟨_, List.getElem?_eq_getElem (manned.hired g member)⟩
  have works := stuck (.worker k) trivial
  cases position : g.pc with
  | load =>
    simp only [step, found, present, Option.bind_eq_bind, Option.bind_some, work, position] at works
    split at works <;> cases works
  | popN =>
    simp only [step, found, present, Option.bind_eq_bind, Option.bind_some, work, position] at works
    split at works <;> cases works
  | invoke msgs =>
    have sends := stuck (.send k .failed) trivial
    have live : w.phase ≠ .running := fun running => sane (.inl ⟨g, member, msgs, w, position, present, running⟩)
    simp [step, found, present, send, position, live] at sends
  | done => rfl

theorem stuck_writers :
    ∀ w ∈ s.routing.writers, (w.started = true → w.inbox = []) ∧ (∀ pc, w.phase ≠ .shutdown pc) ∧
      (w.phase = .watched → w.closed = false) := by
  intro w member
  obtain ⟨writer, found⟩ := List.mem_iff_getElem?.mp member
  refine ⟨?_, ?_, ?_⟩
  · intro started
    by_contra filled
    have free : s.busy writer = false := by
      rw [busy, List.any_eq_false]
      intro g among
      simp [Worker.running, stuck_workers manned stuck sane g among]
    have schedules := stuck (.schedule writer) trivial
    simp [step, found, started, filled, free] at schedules
  · intro pc phase
    have shuts := stuck (.route (.shutdown writer)) trivial
    simp [step, Transport.free, Routing.step, found, phase] at shuts
  · intro watched
    by_contra closed
    have ends := stuck (.route (.closed writer)) trivial
    simp [step, Transport.free, Routing.step, found, watched, closed] at ends

theorem stuck_quiescent : s.quiescent = true := by
  obtain ⟨position, mail⟩ := stuck_router manned stuck sane
  have workers := stuck_workers manned stuck sane
  have writers := stuck_writers manned stuck sane
  simp only [quiescent, mail, position, List.isEmpty_nil, Bool.true_and, Bool.and_eq_true, List.all_eq_true]
  refine ⟨fun g member => by rw [workers g member], fun w member => ?_⟩
  obtain ⟨empty, live, still⟩ := writers w member
  refine ⟨⟨?_, ?_⟩, ?_⟩
  · cases started : w.started with
    | false => rfl
    | true => simp [empty started]
  · cases phase : w.phase with
    | shutdown pc => exact absurd phase (live pc)
    | _ => rfl
  · by_cases watched : w.phase = .watched
    · simp [watched, still watched]
    · simp [watched]

end Stuck

end Transport

/-- The messages of an envelope that the stream did not take. -/
def Offer.refused (serializer : Serializer P) (offer : Offer P) : List (StreamDeliver P) :=
  if offer.result = .ok then [] else offer.msgs.filter serializer.serializes

theorem Transport.Move.serializer {s t : Transport P} (move : s.Move label t) : t.serializer = s.serializer := by
  cases move with
  | _ => rfl

theorem Transport.offer_refused (s : Transport P) (label : TransportLabel P) :
    (s.offer label).flatMap (Offer.refused s.serializer) = s.refuses label := by
  cases label with
  | send k result => cases found : s.workers[k]? <;> simp [offer, refuses, Offer.refused, found]
  | route | get | push | schedule | worker => rfl

namespace Ledger

def refused (s : Ledger P) : List (StreamDeliver P) :=
  s.offers.flatMap (Offer.refused s.transport.serializer)

/-- The messages in inboxes that were stopped. -/
def stranded (s : Ledger P) : List (StreamDeliver P) :=
  (s.transport.routing.writers.filter (!·.started)).flatMap (·.inbox)

theorem stranded_of_empty {writers : List (StreamWriter P)} (empty : ∀ w ∈ writers, w.started = true → w.inbox = []) :
    writers.flatMap (·.inbox) = (writers.filter (!·.started)).flatMap (·.inbox) := by
  induction writers with
  | nil => rfl
  | cons w rest ih =>
    rw [List.forall_mem_cons] at empty
    rw [List.flatMap_cons, ih empty.2, List.filter_cons]
    cases started : w.started with
    | false => rfl
    | true =>
      rw [empty.1 started]
      rfl

/-- At rest, no message is held but in the inboxes that were stopped. -/
theorem accounts_rest {s : Transport P} {refused : List (StreamDeliver P)} (accounts : s.Accounts refused)
    (manned : s.Manned) (stuck : Stuck Transport.step TransportLabel.moves s) (sane : ¬ s.Crashing) :
    s.accepted.Perm (s.sent ++ refused ++ s.skipped ++ s.routing.deadLetters ++ s.routing.lost ++
      (s.routing.writers.filter (!·.started)).flatMap (·.inbox)) := by
  obtain ⟨position, mail⟩ := Transport.stuck_router manned stuck sane
  have batches : s.workers.flatMap (·.pc.msgs) = [] := by
    rw [List.flatMap_eq_nil_iff]
    intro g member
    rw [Transport.stuck_workers manned stuck sane g member]
    rfl
  have inboxes := stranded_of_empty fun w member => (Transport.stuck_writers manned stuck sane w member).1
  rw [Transport.Accounts, Routing.held, batches, inboxes, position, mail] at accounts
  rw [← Multiset.coe_eq_coe, accounts]
  simp only [List.flatMap_nil, RouterPc.hand, Multiset.coe_nil, zero_add, add_zero, ← Multiset.coe_add]
  ac_rfl

end Ledger
end Hollywood.Remote
