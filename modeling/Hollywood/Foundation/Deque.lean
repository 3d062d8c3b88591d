import Mathlib.Data.List.Induction
import Mathlib.Data.List.Nodup
import Mathlib.Data.List.Perm.Subperm

/-! Unbounded double-ended queues as lists, with the results of every
operation and the items a history of operations has released and still holds. -/
namespace Hollywood.Deque
open scoped List
variable {α : Type*}

inductive Op (α : Type*) where
  | push (item : α)
  | pushFront (item : α)
  | pop
  | popN (n : Nat)
  | clear
  | len
  deriving DecidableEq, Repr

/-- What a caller gets back; the flag is `false` when nothing was queued. -/
inductive Result (α : Type*) where
  | done
  | item (value : α) (ok : Bool)
  | items (values : List α) (ok : Bool)
  | length (n : Nat)
  deriving DecidableEq, Repr

def Result.released : Result α → List α
  | .item value true => [value]
  | .items values _ => values
  | _ => []

/-- One operation on the queued items, oldest first. -/
def perform [Inhabited α] (queue : List α) : Op α → Result α × List α
  | .push item => (.done, queue ++ [item])
  | .pushFront item => (.done, item :: queue)
  | .pop =>
    match queue with
    | [] => (.item default false, [])
    | item :: rest => (.item item true, rest)
  | .popN n => if queue.isEmpty then (.items [] false, []) else (.items (queue.take n) true, queue.drop n)
  | .clear => (.done, [])
  | .len => (.length queue.length, queue)

def execute [Inhabited α] : List α → List (Op α) → List (Result α) × List α
  | queue, [] => ([], queue)
  | queue, op :: rest =>
    let after := execute (perform queue op).2 rest
    ((perform queue op).1 :: after.1, after.2)

variable [Inhabited α]

/-- The items released so far, in order, and the items still held. -/
def advance (state : List α × List α) (op : Op α) : List α × List α :=
  (state.1 ++ (perform state.2 op).1.released, (perform state.2 op).2)

def replayFrom (state : List α × List α) (history : List (Op α)) : List α × List α :=
  history.foldl advance state

def replay (history : List (Op α)) : List α × List α := replayFrom ([], []) history

omit [Inhabited α] in
/-- Everything that entered the queue, in the order of the operations. -/
def pushed : List (Op α) → List α :=
  List.filterMap fun
    | .push item | .pushFront item => some item
    | _ => none

omit [Inhabited α] in
theorem mem_pushed {item : α} {history : List (Op α)} :
    item ∈ pushed history ↔ .push item ∈ history ∨ .pushFront item ∈ history := by
  induction history with
  | nil => simp [pushed]
  | cons op rest ih =>
    rw [pushed] at ih ⊢
    cases op with
    | push other => simp [ih, or_assoc]
    | pushFront other => simp [ih, or_left_comm]
    | _ => simp [ih]

/-- Released items followed by held ones: the order of service of the queue. -/
def service (state : List α × List α) : List α := state.1 ++ state.2

theorem replayFrom_append (state : List α × List α) (first second : List (Op α)) :
    replayFrom state (first ++ second) = replayFrom (replayFrom state first) second := by
  simp only [replayFrom, List.foldl_append]

theorem replay_append (first second : List (Op α)) :
    replay (first ++ second) = replayFrom (replay first) second :=
  replayFrom_append _ first second

theorem replay_snoc (history : List (Op α)) (op : Op α) :
    replay (history ++ [op]) = advance (replay history) op :=
  replay_append history [op]

omit [Inhabited α] in
@[simp] theorem pushed_append (first second : List (Op α)) :
    pushed (first ++ second) = pushed first ++ pushed second :=
  List.filterMap_append ..

theorem service_push (state : List α × List α) (item : α) :
    service (advance state (.push item)) = service state ++ [item] := by
  simp [service, advance, perform, Result.released]

theorem service_pushFront (state : List α × List α) (item : α) :
    service (advance state (.pushFront item)) = state.1 ++ item :: state.2 := by
  simp [service, advance, perform, Result.released]

theorem service_clear (state : List α × List α) :
    service (advance state .clear) = state.1 := by
  simp [service, advance, perform, Result.released]

/-- Taking items out moves the boundary between released and held only. -/
theorem service_take (state : List α × List α) {op : Op α}
    (taking : op = .pop ∨ (∃ n, op = .popN n) ∨ op = .len) :
    service (advance state op) = service state := by
  obtain ⟨released, held⟩ := state
  rcases taking with rfl | ⟨n, rfl⟩ | rfl
  · cases held <;> simp [service, advance, perform, Result.released]
  · cases held <;> simp [service, advance, perform, Result.released]
  · simp [service, advance, perform, Result.released]

theorem replayFrom_snoc (state : List α × List α) (history : List (Op α)) (op : Op α) :
    replayFrom state (history ++ [op]) = advance (replayFrom state history) op :=
  replayFrom_append state history [op]

/-- Nothing is served twice and nothing is made up: every item served or still
waiting was there before or was pushed, at most as often as that. -/
theorem service_subperm (state : List α × List α) (history : List (Op α)) :
    service (replayFrom state history) <+~ service state ++ pushed history := by
  induction history using List.reverseRecOn with
  | nil => simpa [replayFrom, pushed] using List.Subperm.refl (service state)
  | append_singleton history op ih =>
    rw [replayFrom_snoc, pushed_append, ← List.append_assoc]
    generalize replayFrom state history = current at ih ⊢
    cases op with
    | push item =>
      rw [service_push]
      exact ih.append (List.Subperm.refl [item])
    | pushFront item =>
      rw [service_pushFront]
      have moved : current.1 ++ item :: current.2 ~ service current ++ [item] :=
        List.perm_middle.trans (List.perm_append_singleton item _).symm
      exact moved.subperm.trans (ih.append (List.Subperm.refl [item]))
    | clear =>
      rw [service_clear]
      have kept : current.1 <+ service current := List.sublist_append_left ..
      simpa [pushed] using kept.subperm.trans ih
    | pop | popN n | len =>
      rw [service_take _ (by simp)]
      simpa [pushed] using ih

theorem replay_subperm (history : List (Op α)) : service (replay history) <+~ pushed history := by
  simpa [service, replay] using service_subperm ([], []) history

/-- As long as nothing is dropped, everything pushed is served or waiting. -/
theorem service_perm (history : List (Op α)) (kept : .clear ∉ history) :
    service (replay history) ~ pushed history := by
  induction history using List.reverseRecOn with
  | nil => exact List.Perm.refl _
  | append_singleton history op ih =>
    have earlier := ih fun member => kept (List.mem_append_left _ member)
    rw [replay_snoc, pushed_append]
    generalize replay history = current at earlier ⊢
    cases op with
    | push item =>
      rw [service_push]
      exact earlier.append_right [item]
    | pushFront item =>
      rw [service_pushFront]
      exact List.perm_middle.trans
        ((List.perm_append_singleton item _).symm.trans (earlier.append_right [item]))
    | clear => exact absurd (by simp) kept
    | pop | popN n | len =>
      rw [service_take _ (by simp)]
      simpa [pushed] using earlier

/-- Items that only ever enter at the back are served in the order they came. -/
theorem service_order (p : α → Bool) (history : List (Op α))
    (back : ∀ item, .pushFront item ∈ history → p item = false) :
    (service (replay history)).filter p <+ (pushed history).filter p := by
  induction history using List.reverseRecOn with
  | nil => exact List.Sublist.refl _
  | append_singleton history op ih =>
    have earlier := ih fun item member => back item (List.mem_append_left _ member)
    rw [replay_snoc, pushed_append, List.filter_append]
    cases op with
    | push item =>
      rw [service_push, List.filter_append]
      exact earlier.append (List.Sublist.refl _)
    | pushFront item =>
      have front : p item = false := back item (by simp)
      rw [service_pushFront, List.filter_append, List.filter_cons, front]
      simpa [service, pushed, front] using earlier
    | clear =>
      rw [service_clear]
      have kept : (replay history).1 <+ service (replay history) := List.sublist_append_left ..
      simpa [pushed] using (kept.filter p).trans earlier
    | pop | popN n | len =>
      rw [service_take _ (by simp)]
      simpa [pushed] using earlier

/-- What was released before stays a prefix of what is released later. -/
theorem replayFrom_released (state : List α × List α) (history : List (Op α)) :
    replayFrom state history =
      (state.1 ++ (replayFrom ([], state.2) history).1, (replayFrom ([], state.2) history).2) := by
  induction history generalizing state with
  | nil => simp [replayFrom]
  | cons op rest ih =>
    change replayFrom (advance state op) rest = _
    rw [ih (advance state op)]
    change _ = (state.1 ++ (replayFrom (advance ([], state.2) op) rest).1,
      (replayFrom (advance ([], state.2) op) rest).2)
    rw [ih (advance ([], state.2) op)]
    simp [advance]

/-- Clearing drops what is held at that moment and nothing else. -/
theorem replay_clear (first second : List (Op α)) :
    replay (first ++ .clear :: second) =
      ((replay first).1 ++ (replay second).1, (replay second).2) := by
  rw [replay_append]
  change replayFrom (advance (replay first) .clear) second = _
  rw [replayFrom_released]
  simp [advance, perform, Result.released, replay]

omit [Inhabited α] in
theorem nodup_of_subperm {smaller larger : List α} (included : smaller <+~ larger)
    (distinct : larger.Nodup) : smaller.Nodup := by
  obtain ⟨shuffled, permuted, sub⟩ := included
  exact permuted.nodup_iff.mp (distinct.sublist sub)

omit [Inhabited α] in
/-- A clear cuts a queue between the items already released and the others. -/
theorem survives_clear {released held queued : List α} (n : Nat)
    (distinct : (released ++ held).Nodup)
    (kept : queued.take n <+ released ++ held)
    (gone : ∀ item ∈ queued.drop n, item ∉ released ++ held) :
    ∃ m, queued.take m <+ released ∧ ∀ item ∈ queued.drop m, item ∉ released := by
  obtain ⟨served, waiting, parts, servedIn, waitingIn⟩ := List.sublist_append_iff.mp kept
  have whole : queued = served ++ (waiting ++ queued.drop n) := by
    rw [← List.append_assoc, ← parts, List.take_append_drop]
  refine ⟨served.length, ?_, ?_⟩
  · rw [whole, List.take_left]
    exact servedIn
  · rw [whole, List.drop_left]
    intro item member inReleased
    rcases List.mem_append.mp member with inWaiting | dropped
    · exact (List.nodup_append.mp distinct).2.2 item inReleased item (waitingIn.subset inWaiting) rfl
    · exact gone item dropped (List.mem_append_left _ inReleased)

/-- A queue of distinct items is served in its order, apart from what a clear
drops: a prefix of it is a sublist of the service order, the rest is nowhere. -/
theorem service_queued (released queued : List α) (history : List (Op α))
    (distinct : (released ++ queued ++ pushed history).Nodup) :
    ∃ n, queued.take n <+ service (replayFrom (released, queued) history) ∧
      ∀ item ∈ queued.drop n, item ∉ service (replayFrom (released, queued) history) := by
  induction history using List.reverseRecOn with
  | nil => exact ⟨queued.length, by simp [replayFrom, service], by simp⟩
  | append_singleton history op ih =>
    rw [pushed_append, ← List.append_assoc] at distinct
    have fresh := (List.nodup_append.mp distinct).2.2
    obtain ⟨n, kept, gone⟩ := ih (List.nodup_append.mp distinct).1
    have served := service_subperm (released, queued) history
    rw [replayFrom_snoc]
    generalize replayFrom (released, queued) history = current at kept gone served ⊢
    have newcomer (item : α) (entered : item ∈ pushed [op]) : item ∉ queued := fun present =>
      fresh item (by simp [present]) item entered rfl
    cases op with
    | push item =>
      refine ⟨n, ?_, ?_⟩
      · rw [service_push]
        exact kept.trans (List.sublist_append_left ..)
      · intro old dropped
        rw [service_push, List.mem_append, List.mem_singleton, not_or]
        refine ⟨gone old dropped, ?_⟩
        rintro rfl
        exact newcomer old (by simp [pushed]) (List.mem_of_mem_drop dropped)
    | pushFront item =>
      have inserted : service current <+ current.1 ++ item :: current.2 :=
        (List.sublist_cons_self ..).append_left _
      refine ⟨n, ?_, ?_⟩
      · rw [service_pushFront]
        exact kept.trans inserted
      · intro old dropped
        rw [service_pushFront, List.mem_append, List.mem_cons]
        rintro (early | rfl | late)
        · exact gone old dropped (List.mem_append_left _ early)
        · exact newcomer old (by simp [pushed]) (List.mem_of_mem_drop dropped)
        · exact gone old dropped (List.mem_append_right _ late)
    | clear =>
      rw [service_clear]
      exact survives_clear n (nodup_of_subperm served (List.nodup_append.mp distinct).1) kept gone
    | pop | popN k | len =>
      rw [service_take _ (by simp)]
      exact ⟨n, kept, gone⟩

/-- An item pushed to the front is served before everything that was waiting at
that moment, whatever happens later. -/
theorem service_urgent (first later : List (Op α)) (urgent : α)
    (distinct : (pushed (first ++ .pushFront urgent :: later)).Nodup)
    (waiting : item ∈ (replay first).2)
    (served : item ∈ service (replay (first ++ .pushFront urgent :: later))) :
    [urgent, item] <+ service (replay (first ++ .pushFront urgent :: later)) := by
  have split : replay (first ++ .pushFront urgent :: later) =
      replayFrom ((replay first).1, urgent :: (replay first).2) later := by
    rw [replay_append]
    change replayFrom (advance (replay first) (.pushFront urgent)) later = _
    simp [advance, perform, Result.released]
  have known : (replay first).1 ++ urgent :: (replay first).2 ++ pushed later <+~
      pushed (first ++ .pushFront urgent :: later) := by
    have before := replay_subperm (first ++ [.pushFront urgent])
    rw [replay_snoc, service_pushFront] at before
    have both := before.append (List.Subperm.refl (pushed later))
    rwa [← pushed_append, List.append_assoc first, List.singleton_append] at both
  obtain ⟨n, kept, gone⟩ := service_queued _ _ later (nodup_of_subperm known distinct)
  rw [split] at served ⊢
  cases n with
  | zero => exact absurd served (gone item (List.mem_cons_of_mem _ waiting))
  | succ n =>
    have early : item ∈ (replay first).2.take n := by
      rw [← List.take_append_drop n (replay first).2, List.mem_append] at waiting
      exact waiting.resolve_right fun dropped => gone item dropped served
    exact ((List.singleton_sublist.mpr early).cons_cons urgent).trans kept

omit [Inhabited α] in
theorem takeWhile_insert {p : α → Bool} (front back : List α) {item : α} (passes : p item = true) :
    (front ++ back).takeWhile p <+ (front ++ item :: back).takeWhile p := by
  induction front with
  | nil =>
    rw [List.nil_append, List.nil_append, List.takeWhile_cons_of_pos passes]
    exact List.sublist_cons_self ..
  | cons first front ih =>
    simp only [List.cons_append, List.takeWhile_cons]
    split
    · exact ih.cons_cons first
    · exact List.Sublist.refl _

/-- As long as nothing is dropped and only items that pass are pushed to the
front, what is ahead of the first item that does not pass stays ahead of it. -/
theorem service_ahead (p : α → Bool) (first later : List (Op α)) (kept : .clear ∉ later)
    (front : ∀ item, .pushFront item ∈ later → p item = true) :
    (service (replay first)).takeWhile p <+ (service (replay (first ++ later))).takeWhile p := by
  induction later using List.reverseRecOn with
  | nil => rw [List.append_nil]
  | append_singleton later op ih =>
    have ahead := ih (fun member => kept (List.mem_append_left _ member))
      fun item member => front item (List.mem_append_left _ member)
    rw [← List.append_assoc, replay_snoc]
    generalize replay (first ++ later) = current at ahead ⊢
    refine ahead.trans ?_
    cases op with
    | push item =>
      rw [service_push]
      rw [List.takeWhile_append]
      split
      · exact List.Sublist.trans (List.takeWhile_prefix p).sublist (List.sublist_append_left ..)
      · exact List.Sublist.refl _
    | pushFront item =>
      rw [service_pushFront]
      exact takeWhile_insert _ _ (front item (by simp))
    | clear => exact absurd (by simp) kept
    | pop | popN n | len => rw [service_take _ (by simp)]

end Hollywood.Deque
