import Hollywood.Process

/-! Where pills go inside a process. A context is cancelled only for a pill that
the goroutine holds: in a batch, in the frame of an `Invoke` or, after a crash, in
the retry buffer. -/
namespace Hollywood
variable {M W : Type} [Inhabited M]

/-- The envelopes a `cleanup` can come back to, given the retry buffer. -/
def Reason.held (buffer : List (Envelope M)) : Reason M → List (Envelope M)
  | .pill f _ => f.msgs
  | .limit => buffer

def Reason.context : Reason M → Option Nat
  | .pill _ ctx => some ctx
  | .limit => none

/-- The envelopes that the goroutine can still meet, given the retry buffer. -/
def Act.held (buffer : List (Envelope M)) : Act M → List (Envelope M)
  | .invoke f | .receiving (.message f) | .flush f _ _ | .receiving (.flush f _ _) => f.msgs
  | .recoverInvoke f _ | .receiving (.crashedInvoke f _) => f.msgs.drop f.nproc
  | .cleanup reason | .childrenLen reason | .makeChildren reason | .fillChildren reason _
  | .poison reason _ | .stopInbox reason | .unregister reason | .stopping reason
  | .receiving (.cleanup reason) | .cancel reason => reason.held buffer
  | .loop (.invoke msgs) => msgs
  | .replayed | .inboxStart _ | .loop _ | .returned | .panicked _ => []
  | _ => buffer

/-- The context of the pill that the goroutine is serving. -/
def Act.serves : Act M → Option Nat
  | .flush _ _ ctx | .receiving (.flush _ _ ctx) => some ctx
  | .cleanup reason | .childrenLen reason | .makeChildren reason | .fillChildren reason _
  | .poison reason _ | .stopInbox reason | .unregister reason | .stopping reason
  | .receiving (.cleanup reason) | .cancel reason => reason.context
  | _ => none

/-- The contexts that the goroutine has cancelled, is serving or can still meet
are allowed ones. -/
structure Routine.Confined (allowed : Nat → Prop) (a : Actor M W) (r : Routine M) : Prop where
  cancelled : ∀ ctx ∈ a.cancelled, allowed ctx
  held : ∀ e ∈ r.act.held a.mbuffer, ∀ ctx, e.context = some ctx → allowed ctx
  serves : ∀ ctx, r.act.serves = some ctx → allowed ctx

namespace Actor
variable {allowed : Nat → Prop}

theorem ret_confined {b : Actor M W} (r : Routine M) (cancelled : ∀ ctx ∈ b.cancelled, allowed ctx) :
    r.ret.Confined allowed b := by
  obtain ⟨base, replays, act⟩ := r
  refine ⟨cancelled, ?_, ?_⟩
  · cases replays <;> cases base <;> exact List.forall_mem_nil _
  · cases replays <;> cases base <;> exact nofun

theorem escape_confined {b : Actor M W} (r : Routine M) (v : Panic)
    (cancelled : ∀ ctx ∈ b.cancelled, allowed ctx)
    (held : ∀ e ∈ b.mbuffer, ∀ ctx, e.context = some ctx → allowed ctx) :
    (r.escape v).Confined allowed b := by
  obtain ⟨base, replays, act⟩ := r
  refine ⟨cancelled, ?_, ?_⟩
  · cases replays
    · exact List.forall_mem_nil _
    · exact held
  · cases replays <;> exact nofun

theorem cancelled_confined {a : Actor M W} (cancelled : ∀ ctx ∈ a.cancelled, allowed ctx)
    (serves : ∀ ctx, some served = some ctx → allowed ctx) :
    ∀ ctx ∈ a.cancelled ++ [served], allowed ctx := by
  intro ctx member
  rcases List.mem_append.mp member with old | new
  · exact cancelled ctx old
  · exact serves ctx (congrArg some (List.mem_singleton.mp new).symm)

theorem abort_confined {a : Actor M W} {r : Routine M} {reason : Reason M} (v : Panic)
    (cancelled : ∀ ctx ∈ a.cancelled, allowed ctx)
    (held : ∀ e ∈ reason.held a.mbuffer, ∀ ctx, e.context = some ctx → allowed ctx)
    (serves : ∀ ctx, reason.context = some ctx → allowed ctx) :
    (a.abort r v reason).2.Confined allowed (a.abort r v reason).1 := by
  cases reason with
  | pill f served =>
    exact ⟨cancelled_confined cancelled serves,
      fun e member => held e (List.mem_of_mem_drop member), nofun⟩
  | limit => exact escape_confined r .error cancelled held

/-- Outside the receiver new pills come from the mailbox only. -/
theorem Move.confined {a : Actor M W} {r : Routine M} (confined : r.Confined allowed a)
    (mail : ∀ pc, r.act = .loop pc →
      ∀ e ∈ a.inbox.rb.toList, ∀ ctx, e.context = some ctx → allowed ctx)
    (move : Move a r b next spawned) : next.Confined allowed b := by
  obtain ⟨base, replays, act⟩ := r
  obtain ⟨cancelled, held, serves⟩ := confined
  cases move with
  | looped position move =>
    subst position
    cases move with
    | batch => exact ⟨cancelled, fun e member => mail _ rfl e (List.mem_of_mem_take member), nofun⟩
    | _ => exact ⟨cancelled, List.forall_mem_nil _, nofun⟩
  | left position | replayed position | inboxStarting position =>
    subst position
    exact ⟨cancelled, List.forall_mem_nil _, nofun⟩
  | inboxStarted position | invokeEnd position => exact ret_confined _ cancelled
  | cancelPill position =>
    subst position
    exact ret_confined _ (cancelled_confined cancelled serves)
  | cancelNil position =>
    subst position
    exact escape_confined _ .error cancelled held
  | fillPanics position =>
    subst position
    exact abort_confined .error cancelled held serves
  | invokeGraceful position found | invokeStop position found =>
    subst position
    exact ⟨cancelled, held, held _ (List.mem_of_getElem? found)⟩
  | _ position =>
    subst position
    exact ⟨cancelled, held, serves⟩

theorem resume_confined {a : Actor M W} {r : Routine M} (confined : r.Confined allowed a)
    (position : r.act = .receiving site) (outcome : Outcome)
    (user : outcome ≠ .returns → site.user = true) :
    (a.resume r site outcome).2.Confined allowed (a.resume r site outcome).1 := by
  obtain ⟨base, replays, act⟩ := r
  obtain ⟨cancelled, held, serves⟩ := confined
  subst position
  cases outcome with
  | returns =>
    cases site with
    | started =>
      simp only [resume]
      split
      · exact ⟨cancelled, held, nofun⟩
      · exact ⟨cancelled, List.forall_mem_nil _, nofun⟩
    | _ => exact ⟨cancelled, held, serves⟩
  | panics v =>
    cases site with
    | message f | flush f rest served =>
      exact ⟨cancelled, fun e member => held e (List.mem_of_mem_drop member), nofun⟩
    | _ => cases user (by rintro ⟨⟩)

end Actor
end Hollywood
