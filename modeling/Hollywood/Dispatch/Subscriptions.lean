import Hollywood.EventStream
import Hollywood.Foundation.Keyed

/-! Who an event is forwarded to. The subscribers are the keys of a map of pointers, so that
two pointers to equal PIDs are two subscribers. -/
namespace Hollywood.Dispatch

/-- The calls of `Subscribe` and `Unsubscribe`. -/
inductive Subscription where
  | subscribe (pid : Pointer)
  | unsubscribe (pid : Pointer)
  deriving DecidableEq, Repr

namespace Subscription

def pointer : Subscription → Pointer
  | .subscribe pid | .unsubscribe pid => pid

/-- The message to the event stream. -/
def message {M : Type} : Subscription → Message M
  | .subscribe pid => .eventSub pid
  | .unsubscribe pid => .eventUnsub pid

/-- The last call with a pointer. -/
def lastBy (calls : List Subscription) (p : Pointer) : Option Subscription :=
  calls.reverse.find? (·.pointer = p)

/-- The last call for a PID, whatever pointers to it were used. -/
def lastOn (calls : List Subscription) (pid : PID) : Option Subscription :=
  calls.reverse.find? (·.pointer.pid = some pid)

variable {calls : List Subscription} {call : Subscription} {p : Pointer} {pid : PID}

theorem lastBy_snoc (calls : List Subscription) (call : Subscription) (p : Pointer) :
    lastBy (calls ++ [call]) p = if call.pointer = p then some call else lastBy calls p := by
  rw [lastBy, List.reverse_concat, List.find?_cons, lastBy]
  split
  · rename_i here
    rw [if_pos (of_decide_eq_true here)]
  · rename_i other
    rw [if_neg (of_decide_eq_false other)]

/-- The last call for a PID is the last call with its pointer. -/
theorem lastBy_of_lastOn (last : lastOn calls pid = some call) :
    call.pointer.pid = some pid ∧ lastBy calls call.pointer = some call := by
  have named : call.pointer.pid = some pid := by simpa using List.find?_some last
  refine ⟨named, ?_⟩
  rw [lastOn] at last
  rw [lastBy]
  generalize calls.reverse = recent at last ⊢
  induction recent with
  | nil => cases last
  | cons head rest ih =>
    rw [List.find?_cons] at last ⊢
    by_cases here : head.pointer = call.pointer
    · rw [decide_eq_true (by rw [here, named])] at last
      cases last
      rw [decide_eq_true rfl]
    · rw [decide_eq_false here]
      split at last
      · cases last
        exact absurd rfl here
      · exact ih last

theorem exists_lastOn (given : p.pid = some pid) (last : lastBy calls p = some call) :
    ∃ other, lastOn calls pid = some other := by
  apply Option.isSome_iff_exists.mp
  rw [lastOn, List.find?_isSome]
  refine ⟨call, List.mem_of_find?_eq_some last, ?_⟩
  have named : call.pointer = p := by simpa using List.find?_some last
  rw [named, given, decide_eq_true rfl]

end Subscription

/-- What the event stream forwards: anything but the messages to itself. -/
def Message.forwarded {M : Type} : Message M → Bool
  | .eventSub _ | .eventUnsub _ | .poisonPill _ _ => false
  | _ => true

namespace EventStream
variable {M : Type}

/-- The event stream handles a sequence of calls. -/
def handle (s : EventStream M) (calls : List Subscription) : Option (EventStream M) :=
  calls.foldlM (fun s call => receive s call.message []) s

/-- The PIDs that an event is about to be forwarded to; a nil pointer is passed over. -/
def recipients (s : EventStream M) : List PID := (s.loop.elim [] (·.2)).filterMap (·.pid)

section
open Subscription
variable {s t : EventStream M} {calls : List Subscription} {p : Pointer} {pid : PID}

theorem handle_snoc (s : EventStream M) (calls : List Subscription) (call : Subscription) :
    handle s (calls ++ [call]) = (handle s calls).bind fun t => receive t call.message [] := by
  rw [handle, List.foldlM_append, handle]
  simp

/-- A call decides about its own pointer and leaves the other ones as they are. -/
theorem receive_call (s : EventStream M) (call : Subscription) (distinct : s.subs.Nodup) :
    ∃ t, receive s call.message [] = some t ∧ t.subs.Nodup ∧
      ∀ p, p ∈ t.subs ↔ if call.pointer = p then call = .subscribe p else p ∈ s.subs := by
  cases call with
  | subscribe q =>
    by_cases present : q ∈ s.subs
    · refine ⟨s, by simp [message, receive, present], distinct, ?_⟩
      intro p
      split
      · rename_i same
        cases same
        exact iff_of_true present rfl
      · rfl
    · refine ⟨{ s with subs := s.subs ++ [q] }, by simp [message, receive, present], ?_, ?_⟩
      · rw [← List.concat_eq_append]
        exact distinct.concat present
      · intro p
        rw [List.mem_append, List.mem_singleton]
        split
        · rename_i same
          cases same
          exact iff_of_true (.inr rfl) rfl
        · rename_i other
          exact or_iff_left fun same => other same.symm
  | unsubscribe q =>
    refine ⟨{ s with subs := s.subs.filter (· ≠ q) }, rfl, distinct.filter _, ?_⟩
    intro p
    rw [List.mem_filter, decide_eq_true_eq]
    split
    · rename_i same
      exact iff_of_false (fun kept => kept.2 same.symm) (by rintro ⟨⟩)
    · rename_i other
      exact and_iff_left fun same => other same.symm

/-- The subscribers are the pointers whose own last call is `Subscribe`. -/
theorem handle_subs (e : Engine M) (calls : List Subscription) :
    ∃ t, handle ⟨e, [], none⟩ calls = some t ∧ t.subs.Nodup ∧
      ∀ p, p ∈ t.subs ↔ lastBy calls p = some (.subscribe p) := by
  induction calls using List.reverseRecOn with
  | nil => exact ⟨⟨e, [], none⟩, rfl, List.nodup_nil, fun p => by simp [lastBy]⟩
  | append_singleton calls call ih =>
    obtain ⟨t, handled, distinct, members⟩ := ih
    obtain ⟨u, received, distinct, changed⟩ := receive_call t call distinct
    refine ⟨u, by rw [handle_snoc, handled, Option.bind_some, received], distinct, ?_⟩
    intro p
    rw [changed, lastBy_snoc]
    split
    · exact Option.some_inj.symm
    · exact members p

theorem receive_recipients {event : Message M} {order : List Pointer} (handled : event.forwarded = true)
    (received : receive s event order = some t) :
    order.Perm s.subs ∧ t.recipients = order.filterMap (·.pid) := by
  have ranged : (if order.isPerm s.subs then some { s with loop := forwarding event order } else none) =
      some t := by
    cases event with
    | eventSub | eventUnsub | poisonPill => cases handled
    | _ => exact received
  split at ranged
  · rename_i perm
    cases ranged
    refine ⟨List.isPerm_iff.mp perm, ?_⟩
    cases order with
    | nil => rfl
    | cons => rfl
  · cases ranged

end

/-- For every sequence of `Subscribe` and `Unsubscribe` calls with any pointers, every event
that is handled afterwards and every order of the subscribers: the event is forwarded
exactly once to each PID whose last call was `Subscribe`, and not to a PID whose last call
was `Unsubscribe`, if and only if every pointer whose own last call was `Subscribe` is the
one of the last call for its PID. -/
theorem subscribers_by_identity_iff (e : Engine M) (calls : List Subscription) :
    (∀ event order t, event.forwarded = true →
      (handle ⟨e, [], none⟩ calls).bind (receive · event order) = some t →
      ∀ pid p, (Subscription.lastOn calls pid = some (.subscribe p) → t.recipients.count pid = 1) ∧
        (Subscription.lastOn calls pid = some (.unsubscribe p) → t.recipients.count pid = 0)) ↔
      ∀ p pid, p.pid = some pid → Subscription.lastBy calls p = some (.subscribe p) →
        Subscription.lastOn calls pid = some (.subscribe p) := by
  obtain ⟨s, handled, distinct, members⟩ := handle_subs e calls
  simp only [handled, Option.bind_some]
  have counted (order : List Pointer) (pid : PID) :
      (order.filterMap (·.pid)).count pid = order.countP (·.pid = some pid) := by
    rw [List.count_filterMap]
    exact List.countP_congr fun p _ => by simp
  constructor
  · intro exact_ p pid given last
    have event : (Message.deadLetterEvent none (.poisonPill 0 false) none : Message M).isEvent = true := rfl
    have received := receive_event (.inl event) s
    obtain ⟨-, recipients⟩ := receive_recipients rfl received
    have forwarded := exact_ _ s.subs _ rfl received pid
    rw [recipients, counted] at forwarded
    have subscribed := (members p).mpr last
    obtain ⟨call, latest⟩ := Subscription.exists_lastOn given last
    obtain ⟨named, own⟩ := Subscription.lastBy_of_lastOn latest
    cases call with
    | unsubscribe q =>
      have silent := List.countP_eq_zero.mp ((forwarded q).2 latest) p subscribed
      exact absurd (decide_eq_true given) silent
    | subscribe q =>
      -- the pointer of the last call is subscribed as well, and there is only one
      have unique : (s.subs.map id).Nodup := by simpa using distinct
      have alone := (Keyed.countP_eq_one_iff (m := (⟨s.subs, unique⟩ : Keyed (id : Pointer → Pointer)))
        ((members q).mpr own) (decide_eq_true named)).mp ((forwarded q).1 latest)
      rw [latest, alone p subscribed (decide_eq_true given)]
  · intro single event order t forwarded received pid p
    obtain ⟨ranged, recipients⟩ := receive_recipients forwarded received
    have subscribed (q : Pointer) (member : q ∈ order) (given : q.pid = some pid) :
        Subscription.lastOn calls pid = some (.subscribe q) :=
      single q pid given ((members q).mp (ranged.mem_iff.mp member))
    rw [recipients, counted]
    constructor
    · intro latest
      obtain ⟨named, own⟩ := Subscription.lastBy_of_lastOn latest
      have unique : (order.map id).Nodup := by simpa using ranged.nodup_iff.mpr distinct
      refine (Keyed.countP_eq_one_iff (m := (⟨order, unique⟩ : Keyed (id : Pointer → Pointer)))
        (ranged.mem_iff.mpr ((members p).mpr own)) (decide_eq_true named)).mpr ?_
      intro q member given
      have same := latest.symm.trans (subscribed q member (of_decide_eq_true given))
      cases same
      rfl
    · intro latest
      apply List.countP_eq_zero.mpr
      intro q member given
      cases latest.symm.trans (subscribed q member (of_decide_eq_true given))

/-- Two pointers to one PID: it is subscribed twice, and `Unsubscribe` with the other pointer
leaves it subscribed. -/
theorem subscribed_by_pointer :
    let first : Pointer := ⟨1, some ⟨"local", "a/1"⟩⟩
    let second : Pointer := ⟨2, some ⟨"local", "a/1"⟩⟩
    ((handle ⟨twoProcesses, [], none⟩ [.subscribe first, .subscribe second]).bind
        (receive · (.user 7) [second, first])).map recipients =
      some [⟨"local", "a/1"⟩, ⟨"local", "a/1"⟩] ∧
    ((handle ⟨twoProcesses, [], none⟩ [.subscribe first, .unsubscribe second]).bind
        (receive · (.user 7) [first])).map recipients = some [⟨"local", "a/1"⟩] := by
  decide

end EventStream
end Hollywood.Dispatch
