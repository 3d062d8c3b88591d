import Hollywood.Remote.Router

/-! The entries of the router and the registry. An entry is covered while the writer
behind it has not announced its end, or the announcement waits in the router's
mailbox. A replacement that is spawned before the old writer has left the registry
is never started, and then nothing covers its entry. -/
namespace Hollywood.Remote
open Transition
variable {P : Type}

/-- From `Start` until the writer has left the registry. -/
def Phase.live : Phase → Bool
  | .running | .watched | .shutdown _ => true
  | .created | .stopped => false

/-- From `Start` until the writer tells the router that it goes. -/
def Phase.unannounced : Phase → Bool
  | .running | .watched | .shutdown .notify => true
  | _ => false

theorem Phase.unannounced_live {phase : Phase} (unannounced : phase.unannounced = true) :
    phase.live = true := by
  cases phase with
  | running | watched | shutdown pc => rfl
  | created | stopped => cases unannounced

theorem modify_found {writers : List (StreamWriter P)} {other : Nat}
    (found : (writers.modify writer change)[other]? = some w) :
    ∃ before, writers[other]? = some before ∧ w = if writer = other then change before else before := by
  rw [List.getElem?_modify, Option.map_eq_map, Option.map_eq_some_iff] at found
  obtain ⟨before, present, rfl⟩ := found
  exact ⟨before, present, rfl⟩

theorem found_modify {writers : List (StreamWriter P)} {other : Nat} (found : writers[other]? = some w)
    (writer : Nat) (change : StreamWriter P → StreamWriter P) :
    (writers.modify writer change)[other]? = some (if writer = other then change w else w) := by
  rw [List.getElem?_modify, found]
  rfl

theorem append_found {writers : List (StreamWriter P)} {writer : Nat}
    (found : (writers ++ [new])[writer]? = some w) :
    writers[writer]? = some w ∨ writer = writers.length ∧ w = new := by
  rcases Nat.lt_or_ge writer writers.length with inside | outside
  · rw [List.getElem?_append_left inside] at found
    exact .inl found
  · rw [List.getElem?_append_right outside, List.getElem?_singleton] at found
    split at found
    · refine .inr ⟨by omega, ?_⟩
      cases found
      rfl
    · cases found

theorem found_append {writers : List (StreamWriter P)} {writer : Nat} (found : writers[writer]? = some w)
    (new : StreamWriter P) : (writers ++ [new])[writer]? = some w := by
  rw [List.getElem?_append_left (List.getElem?_eq_some_iff.mp found).1, found]

namespace Routing

/-- A writer for the address is up and has announced nothing yet, or the router has
its announcement still to handle. -/
def Covered (s : Routing P) (address : String) : Prop :=
  (∃ (writer : Nat) (w : StreamWriter P), s.writers[writer]? = some w ∧ w.writeToAddr = address ∧ w.phase.unannounced = true) ∨
    .remoteUnreachable address ∈ s.mailbox

def Ready (s : Routing P) : RouterPc P → Prop
  | .receive | .send _ _ | .panicked _ => True
  | .add stream writer => ∃ w, s.writers[writer]? = some w ∧ w.phase = .created ∧
      w.writeToAddr = stream.target.address
  | .start stream writer => ∃ w, s.writers[writer]? = some w ∧ w.phase = .created ∧
      w.writeToAddr = stream.target.address ∧ s.registry w.pid.id = some writer
  | .init stream writer => ∃ w, s.writers[writer]? = some w ∧ w.phase = .running ∧
      w.writeToAddr = stream.target.address
  | .shutdown stream writer | .store stream writer =>
      (∃ w, s.writers[writer]? = some w ∧ w.writeToAddr = stream.target.address) ∧
        s.Covered stream.target.address

structure InStep (s : Routing P) : Prop where
  named : ∀ (writer : Nat) (w : StreamWriter P), s.writers[writer]? = some w → w.pid.id = "stream/" ++ w.writeToAddr
  registered : ∀ (writer : Nat) (w : StreamWriter P), s.writers[writer]? = some w → w.phase.live = true →
    s.registry w.pid.id = some writer
  started : ∀ (writer : Nat) (w : StreamWriter P), s.writers[writer]? = some w → w.phase.unannounced = true → w.started = true
  entries : ∀ address pid, s.streams address = some pid → pid.id = "stream/" ++ address
  covered : ∀ address, s.streams address ≠ none → s.Covered address
  ready : s.Ready s.router

/-- What covers an address goes on covering it while writers keep their address and
the silent ones stay silent or have their announcement queued. -/
theorem Covered.step {s t : Routing P} (covered : s.Covered address)
    (writers : ∀ (writer : Nat) (w : StreamWriter P), s.writers[writer]? = some w → w.phase.unannounced = true →
      (∃ after, t.writers[writer]? = some after ∧ after.writeToAddr = w.writeToAddr ∧
        after.phase.unannounced = true) ∨ .remoteUnreachable w.writeToAddr ∈ t.mailbox)
    (mail : .remoteUnreachable address ∈ s.mailbox → .remoteUnreachable address ∈ t.mailbox) :
    t.Covered address := by
  rcases covered with ⟨writer, w, found, rfl, silent⟩ | queued
  · rcases writers writer w found silent with ⟨after, present, same, still⟩ | queued
    · exact .inl ⟨writer, after, present, same, still⟩
    · exact .inr queued
  · exact .inr (mail queued)

/-- A change of one writer that keeps its names, leaves it live only where it is
registered and silent only where its inbox is started. -/
structure Change (s : Routing P) (writer : Nat) (change : StreamWriter P → StreamWriter P) : Prop where
  pid : ∀ w, (change w).pid = w.pid
  address : ∀ w, (change w).writeToAddr = w.writeToAddr
  live : ∀ w, s.writers[writer]? = some w → (change w).phase.live = true →
    s.registry w.pid.id = some writer
  up : ∀ w, s.writers[writer]? = some w → (change w).phase.unannounced = true → (change w).started = true

section
variable {s t : Routing P} {change : StreamWriter P → StreamWriter P}

theorem InStep.named_modify (inStep : s.InStep) (changed : s.Change writer change) :
    ∀ (other : Nat) (w : StreamWriter P), (s.writers.modify writer change)[other]? = some w →
      w.pid.id = "stream/" ++ w.writeToAddr := by
  intro other w found
  obtain ⟨before, present, rfl⟩ := modify_found found
  split
  · rw [changed.pid, changed.address]
    exact inStep.named other before present
  · exact inStep.named other before present

theorem InStep.registered_modify (inStep : s.InStep) (changed : s.Change writer change) :
    ∀ (other : Nat) (w : StreamWriter P), (s.writers.modify writer change)[other]? = some w →
      w.phase.live = true → s.registry w.pid.id = some other := by
  intro other w found live
  obtain ⟨before, present, rfl⟩ := modify_found found
  split at live
  · rename_i same
    subst same
    rw [if_pos rfl, changed.pid]
    exact changed.live before present live
  · rename_i different
    rw [if_neg different]
    exact inStep.registered other before present live

theorem InStep.started_modify (inStep : s.InStep) (changed : s.Change writer change) :
    ∀ (other : Nat) (w : StreamWriter P), (s.writers.modify writer change)[other]? = some w →
      w.phase.unannounced = true → w.started = true := by
  intro other w found silent
  obtain ⟨before, present, rfl⟩ := modify_found found
  split at silent
  · rename_i same
    subst same
    rw [if_pos rfl]
    exact changed.up before present silent
  · rename_i different
    rw [if_neg different]
    exact inStep.started other before present silent

theorem Covered.modify (covered : s.Covered address) (changed : s.Change writer change)
    (writers : t.writers = s.writers.modify writer change)
    (silent : ∀ w, s.writers[writer]? = some w → w.phase.unannounced = true →
      (change w).phase.unannounced = true ∨ .remoteUnreachable w.writeToAddr ∈ t.mailbox)
    (mail : s.mailbox ⊆ t.mailbox) : t.Covered address := by
  refine covered.step ?_ fun queued => mail queued
  intro other w found unannounced
  by_cases same : writer = other
  · subst same
    refine (silent w found unannounced).imp_left fun still => ?_
    exact ⟨change w, by rw [writers, found_modify found, if_pos rfl], changed.address w, still⟩
  · exact .inl ⟨w, by rw [writers, found_modify found, if_neg same], rfl, unannounced⟩

end

/-- The router spawns a writer only under an id that the registry has free. -/
def vacant (s : Routing P) (label : RoutingLabel P) : Bool :=
  match label, s.router with
  | .router, .add _ writer => (s.writers[writer]?).all fun w => (s.registry w.pid.id).isNone
  | _, _ => true

theorem initial_inStep (engine : String) (tls : Bool) : (initial engine tls : Routing P).InStep := by
  constructor
  · intro writer w found
    cases found
  · intro writer w found
    cases found
  · intro writer w found
    cases found
  · intro address pid found
    cases found
  · intro address present
    exact absurd rfl present
  · trivial

section
variable {s t : Routing P} {change : StreamWriter P → StreamWriter P}

/-- A writer past `init` is not the one that the router is about to start. -/
theorem Ready.modify (ready : s.Ready pc) (changed : s.Change writer change)
    (writers : t.writers = s.writers.modify writer change)
    (settled : ∀ w, s.writers[writer]? = some w → w.phase ≠ .created ∧ w.phase ≠ .running)
    (registry : ∀ (other : Nat) (w : StreamWriter P), s.writers[other]? = some w → w.phase = .created →
      s.registry w.pid.id = some other → t.registry w.pid.id = some other)
    (covered : ∀ address, s.Covered address → t.Covered address) : t.Ready pc := by
  have others : ∀ (other : Nat) (w : StreamWriter P), s.writers[other]? = some w →
      w.phase = .created ∨ w.phase = .running → t.writers[other]? = some w := by
    intro other w found early
    rw [writers, found_modify found, if_neg]
    rintro rfl
    rcases early with created | running
    · exact (settled w found).1 created
    · exact (settled w found).2 running
  cases pc with
  | receive | send | panicked => trivial
  | add stream other =>
    obtain ⟨w, found, created, address⟩ := ready
    exact ⟨w, others other w found (.inl created), created, address⟩
  | start stream other =>
    obtain ⟨w, found, created, address, registered⟩ := ready
    exact ⟨w, others other w found (.inl created), created, address, registry other w found created registered⟩
  | init stream other =>
    obtain ⟨w, found, running, address⟩ := ready
    exact ⟨w, others other w found (.inr running), running, address⟩
  | shutdown stream other | store stream other =>
    obtain ⟨⟨w, found, address⟩, cover⟩ := ready
    refine ⟨⟨if writer = other then change w else w, ?_, ?_⟩, covered _ cover⟩
    · rw [writers, found_modify found]
    · split
      · rw [changed.address, address]
      · exact address

/-- A step that changes one writer keeps all in step, as long as it takes none out of the
registry and the router is ready for what it does next. -/
theorem InStep.of_change (inStep : s.InStep) (writers : t.writers = s.writers.modify writer change)
    (changed : s.Change writer change)
    (silent : ∀ w, s.writers[writer]? = some w → w.phase.unannounced = true →
      (change w).phase.unannounced = true ∨ .remoteUnreachable w.writeToAddr ∈ t.mailbox)
    (mail : s.mailbox ⊆ t.mailbox) (streams : t.streams = s.streams)
    (registry : t.registry = s.registry) (ready : t.Ready t.router) : t.InStep := by
  constructor
  · rw [writers]
    exact inStep.named_modify changed
  · rw [writers, registry]
    exact inStep.registered_modify changed
  · rw [writers]
    exact inStep.started_modify changed
  · rw [streams]
    exact inStep.entries
  · intro address present
    rw [streams] at present
    exact (inStep.covered address present).modify changed writers silent mail
  · exact ready

/-- So does a step of a writer that the router is not starting. -/
theorem InStep.modify (inStep : s.InStep) (writers : t.writers = s.writers.modify writer change)
    (changed : s.Change writer change)
    (settled : ∀ w, s.writers[writer]? = some w → w.phase ≠ .created ∧ w.phase ≠ .running)
    (silent : ∀ w, s.writers[writer]? = some w → w.phase.unannounced = true →
      (change w).phase.unannounced = true ∨ .remoteUnreachable w.writeToAddr ∈ t.mailbox)
    (mail : s.mailbox ⊆ t.mailbox) (streams : t.streams = s.streams) (router : t.router = s.router)
    (registry : t.registry = s.registry) : t.InStep := by
  apply inStep.of_change writers changed silent mail streams registry
  rw [router]
  refine inStep.ready.modify changed writers settled ?_ fun _ cover =>
    cover.modify changed writers silent mail
  intro other w _ _ registered
  rw [registry, registered]

end

theorem shutdown_inStep {s : Routing P} (inStep : s.InStep) (found : s.writers[writer]? = some w)
    (phase : w.phase = .shutdown pc) : (s.shutdown writer w pc).InStep := by
  have registered := inStep.registered writer w found (by rw [phase]; rfl)
  have settled : ∀ other, s.writers[writer]? = some other →
      other.phase ≠ .created ∧ other.phase ≠ .running := by
    rintro other present
    cases found.symm.trans present
    rw [phase]
    exact ⟨by rintro ⟨⟩, by rintro ⟨⟩⟩
  have live : ∀ other, s.writers[writer]? = some other → s.registry other.pid.id = some writer := by
    rintro other present
    cases found.symm.trans present
    exact registered
  have announced : pc ≠ .notify → ∀ other, s.writers[writer]? = some other →
      other.phase.unannounced = true → False := by
    rintro past other present silent
    cases found.symm.trans present
    rw [phase] at silent
    cases pc with
    | notify => exact past rfl
    | broadcast | closeStream | stopInbox | remove => cases silent
  -- the calls between the announcement and the removal change nothing that counts
  have between : pc ≠ .notify → ∀ {t : Routing P} {change : StreamWriter P → StreamWriter P},
      t.writers = s.writers.modify writer change → (∀ o, (change o).pid = o.pid) →
      (∀ o, (change o).writeToAddr = o.writeToAddr) → (∀ o, (change o).phase.unannounced = false) →
      t.mailbox = s.mailbox → t.streams = s.streams → t.router = s.router → t.registry = s.registry →
      t.InStep := by
    intro past t change writers pid address loud mail streams router registry
    refine inStep.modify writers ⟨pid, address, fun other present _ => live other present, ?_⟩ settled
      (fun other present silent => (announced past other present silent).elim)
      (by rw [mail]; exact List.Subset.refl _) streams router registry
    intro other present silent
    rw [loud] at silent
    cases silent
  cases pc with
  | notify =>
    refine inStep.modify rfl ⟨fun _ => rfl, fun _ => rfl, fun other present _ => live other present, ?_⟩ settled ?_
      (List.subset_append_left _ _) rfl rfl rfl
    · rintro other present ⟨⟩
    · intro other present silent
      cases found.symm.trans present
      exact .inr (List.mem_append_right _ (List.mem_singleton_self _))
  | broadcast | closeStream | stopInbox =>
    exact between (by rintro ⟨⟩) rfl (fun _ => rfl) (fun _ => rfl) (fun _ => rfl) rfl rfl rfl rfl
  | remove =>
    have changed : s.Change writer (fun w => { w with phase := .stopped }) := by
      refine ⟨fun _ => rfl, fun _ => rfl, ?_, ?_⟩
      · rintro other present ⟨⟩
      · rintro other present ⟨⟩
    have covered : ∀ address, s.Covered address → (s.shutdown writer w .remove).Covered address := by
      intro address cover
      exact cover.modify changed rfl
        (fun other present silent => (announced (by rintro ⟨⟩) other present silent).elim)
        (List.Subset.refl _)
    -- the id that is freed is that of the writer itself
    have kept : ∀ (other : Nat) (o : StreamWriter P), other ≠ writer → s.registry o.pid.id = some other →
        Function.update s.registry w.pid.id none o.pid.id = some other := by
      intro other o different present
      rw [Function.update_of_ne, present]
      intro same
      rw [same, registered] at present
      exact different (Option.some.inj present).symm
    constructor
    · exact inStep.named_modify changed
    · intro other o present alive
      have before := inStep.registered_modify changed other o present alive
      apply kept other o _ before
      rintro rfl
      obtain ⟨earlier, -, rfl⟩ := modify_found present
      rw [if_pos rfl] at alive
      cases alive
    · exact inStep.started_modify changed
    · exact inStep.entries
    · intro address present
      exact covered address (inStep.covered address present)
    · refine inStep.ready.modify changed rfl settled ?_ covered
      intro other o present created registered
      apply kept other o _ registered
      rintro rfl
      exact (settled o present).1 created

/-- A writer that has announced nothing may go on in any way that leaves its inbox alone. -/
theorem InStep.silent_change {s : Routing P} {change : StreamWriter P → StreamWriter P} (inStep : s.InStep)
    (found : s.writers[writer]? = some w) (silent : w.phase.unannounced = true)
    (pid : ∀ w, (change w).pid = w.pid) (address : ∀ w, (change w).writeToAddr = w.writeToAddr)
    (started : ∀ w, (change w).started = w.started) : s.Change writer change := by
  refine ⟨pid, address, ?_, ?_⟩
  · intro other present _
    cases found.symm.trans present
    exact inStep.registered writer w found (Phase.unannounced_live silent)
  · intro other present _
    cases found.symm.trans present
    rw [started]
    exact inStep.started writer w found silent

/-- A step that changes no writer, no entry and nothing in the registry. -/
theorem InStep.keep {s t : Routing P} (inStep : s.InStep) (writers : t.writers = s.writers)
    (registry : t.registry = s.registry) (streams : t.streams = s.streams) (mail : s.mailbox ⊆ t.mailbox)
    (ready : (∀ address, s.Covered address → t.Covered address) → t.Ready t.router) : t.InStep := by
  have covered (address : String) (cover : s.Covered address) : t.Covered address :=
    cover.step (fun writer w found silent => .inl ⟨w, by rw [writers, found], rfl, silent⟩) fun queued => mail queued
  refine ⟨?_, ?_, ?_, ?_, ?_, ready covered⟩
  · rw [writers]
    exact inStep.named
  · rw [writers, registry]
    exact inStep.registered
  · rw [writers]
    exact inStep.started
  · rw [streams]
    exact inStep.entries
  · rw [streams]
    exact fun address present => covered address (inStep.covered address present)

/-- The router's own steps on a writer announce nothing. -/
theorem InStep.by_router {s t : Routing P} {change : StreamWriter P → StreamWriter P}
    (inStep : s.InStep) (writers : t.writers = s.writers.modify writer change)
    (changed : s.Change writer change)
    (silent : ∀ w, w.phase.unannounced = true → (change w).phase.unannounced = true)
    (mail : t.mailbox = s.mailbox) (streams : t.streams = s.streams) (registry : t.registry = s.registry)
    (ready : t.Ready t.router) : t.InStep := by
  refine inStep.of_change writers changed (fun w _ quiet => .inl (silent w quiet)) ?_ streams registry ready
  rw [mail]
  exact List.Subset.refl _

theorem inStep_move {s t : Routing P} (inStep : s.InStep) (allowed : s.vacant label = true)
    (move : Move s label t) : t.InStep := by
  obtain ⟨named, registered, started, entries, covered, ready⟩ := id inStep
  have writersKept : ∀ {t : Routing P} {address : String}, s.Covered address → t.writers = s.writers →
      (RouterMsg.remoteUnreachable address ∈ s.mailbox → .remoteUnreachable address ∈ t.mailbox) →
      t.Covered address := by
    intro t address cover writers mail
    exact cover.step (fun writer w found silent => .inl ⟨w, by rw [writers, found], rfl, silent⟩) mail
  cases move with
  | deliver stream =>
    refine inStep.keep rfl rfl rfl (List.subset_append_left _ _) fun covers => ?_
    cases position : s.router with
    | receive | send | panicked => trivial
    | add | start | init => simpa only [Ready, position] using ready
    | shutdown | store =>
      rw [position] at ready
      exact ⟨ready.1, covers _ ready.2⟩
  | terminate position mail =>
    refine ⟨named, registered, started, ?_, ?_, ?_⟩
    · intro address pid found
      simp only [handleTerminateStream, Function.update_apply] at found
      split at found
      · cases found
      · exact entries address pid found
    · intro address present
      simp only [handleTerminateStream, Function.update_apply] at present
      split at present
      · exact absurd rfl present
      · rename_i different
        refine writersKept (covered address present) rfl fun queued => ?_
        rw [mail] at queued
        rcases List.mem_cons.mp queued with same | later
        · cases same
          exact absurd rfl different
        · exact later
    · simp only [handleTerminateStream, position]
      trivial
  | known position mail found =>
    refine ⟨named, registered, started, entries, ?_, trivial⟩
    intro address present
    refine writersKept (covered address present) rfl fun queued => ?_
    rw [mail] at queued
    exact (List.mem_cons.mp queued).resolve_left (by rintro ⟨⟩)
  | @create rest stream position mail missing =>
    refine ⟨?_, ?_, ?_, entries, ?_, ?_⟩
    · intro writer w found
      rcases append_found found with old | ⟨-, rfl⟩
      · exact named writer w old
      · rfl
    · intro writer w found live
      rcases append_found found with old | ⟨-, rfl⟩
      · exact registered writer w old live
      · cases live
    · intro writer w found silent
      rcases append_found found with old | ⟨-, rfl⟩
      · exact started writer w old silent
      · cases silent
    · intro address present
      refine (covered address present).step ?_ fun queued => ?_
      · intro writer w found silent
        exact .inl ⟨w, found_append found _, rfl, silent⟩
      · rw [mail] at queued
        exact (List.mem_cons.mp queued).resolve_left (by rintro ⟨⟩)
    · exact ⟨newStreamWriter s.engine stream.target.address, by simp, rfl, rfl⟩
  | duplicate position found taken =>
    simp [vacant, position, found, taken] at allowed
  | @add stream writer w position found free =>
    rw [position] at ready
    obtain ⟨same, present, created, address⟩ := ready
    cases found.symm.trans present
    refine ⟨named, ?_, started, entries, fun address present => writersKept (covered address present) rfl id, ?_⟩
    · intro other o found live
      have before := registered other o found live
      dsimp only
      rw [Function.update_of_ne, before]
      intro clash
      rw [clash, free] at before
      cases before
    · exact ⟨w, found, created, address, by simp⟩
  | @start stream writer position =>
    rw [position] at ready
    obtain ⟨w, found, created, address, here⟩ := ready
    refine inStep.by_router rfl ⟨fun _ => rfl, fun _ => rfl, ?_, fun _ _ _ => rfl⟩ (fun _ _ => rfl)
      rfl rfl rfl ?_
    · intro other present _
      cases found.symm.trans present
      exact here
    · refine ⟨_, found_modify found writer _, ?_, ?_⟩
      · rw [if_pos rfl]
      · rw [if_pos rfl]
        exact address
  | @stopped stream writer w position found finished =>
    rw [position] at ready
    exact inStep.keep rfl rfl rfl (List.Subset.refl _) fun covers => ⟨ready.1, covers _ ready.2⟩
  | @store stream writer w position found =>
    rw [position] at ready
    obtain ⟨⟨same, present, address⟩, cover⟩ := ready
    cases found.symm.trans present
    refine ⟨named, registered, started, ?_, ?_, trivial⟩
    · intro other pid entry
      simp only [Function.update_apply] at entry
      split at entry
      · rename_i here
        cases entry
        rw [here, named writer w found, address]
      · exact entries other pid entry
    · intro other entry
      simp only [Function.update_apply] at entry
      split at entry
      · rename_i here
        rw [here]
        exact writersKept cover rfl id
      · exact writersKept (covered other entry) rfl id
  | @send stream swpid writer position found =>
    refine inStep.by_router rfl ⟨fun _ => rfl, fun _ => rfl, ?_, ?_⟩ (fun _ quiet => quiet) rfl rfl rfl trivial
    · exact fun w present live => registered writer w present live
    · exact fun w present silent => started writer w present silent
  | deadLetter | crash => exact inStep.keep rfl rfl rfl (List.Subset.refl _) fun _ => trivial
  | restart position =>
    exact ⟨named, registered, started, by rintro address pid ⟨⟩, fun address present => absurd rfl present,
      trivial⟩
  | @fail stream writer dial position =>
    rw [position] at ready
    obtain ⟨w, found, running, address⟩ := ready
    have changed := found_modify found writer fun w => { w with phase := .shutdown .notify }
    rw [if_pos rfl] at changed
    exact inStep.by_router rfl
      (inStep.silent_change found (by rw [running]; rfl) (fun _ => rfl) (fun _ => rfl) fun _ => rfl)
      (fun _ _ => rfl) rfl rfl rfl ⟨⟨_, changed, address⟩, .inl ⟨writer, _, changed, address, rfl⟩⟩
  | @deadline stream writer dial position =>
    rw [position] at ready
    obtain ⟨w, found, running, address⟩ := ready
    refine inStep.keep rfl rfl rfl (List.Subset.refl _) fun _ =>
      ⟨⟨w, found, address⟩, .inl ⟨writer, w, found, address, ?_⟩⟩
    rw [running]
    rfl
  | @connect stream writer dial position =>
    rw [position] at ready
    obtain ⟨w, found, running, address⟩ := ready
    have changed := found_modify found writer fun w => { w with connected := true, phase := .watched }
    rw [if_pos rfl] at changed
    exact inStep.by_router rfl
      (inStep.silent_change found (by rw [running]; rfl) (fun _ => rfl) (fun _ => rfl) fun _ => rfl)
      (fun _ _ => rfl) rfl rfl rfl ⟨⟨_, changed, address⟩, .inl ⟨writer, _, changed, address, rfl⟩⟩
  | @lose writer w found watched | @closed writer w found watched =>
    refine inStep.modify rfl
      (inStep.silent_change found (by rw [watched]; rfl) (fun _ => rfl) (fun _ => rfl) fun _ => rfl) ?_
      (fun _ _ _ => .inl rfl) (List.Subset.refl _) rfl rfl rfl
    intro other present
    cases found.symm.trans present
    rw [watched]
    exact ⟨by rintro ⟨⟩, by rintro ⟨⟩⟩
  | shutdown found phase => exact shutdown_inStep inStep found phase

/-- In every run in which the router spawns writers only under free ids, an entry of
the router leads to a started writer in the registry, except while the router has
the announcement of a writer's end still to handle. -/
theorem entries_have_writers (engine : String) (tls : Bool) (s : Routing P)
    (reached : Reaches (restrict vacant step) (initial engine tls) s)
    (address : String) (pid : PID) (entry : s.streams address = some pid)
    (handled : .remoteUnreachable address ∉ s.mailbox) :
    ∃ (writer : Nat) (w : StreamWriter P), s.registry pid.id = some writer ∧
      s.writers[writer]? = some w ∧ w.writeToAddr = address ∧ w.started = true := by
  have inStep : s.InStep := reached.invariant
    (fun inStep stepped =>
      inStep_move inStep (restrict_some stepped).1 (step_move (restrict_some stepped).2))
    (initial_inStep engine tls)
  rcases inStep.covered address (by rw [entry]; rintro ⟨⟩) with ⟨writer, w, found, same, silent⟩ | queued
  · refine ⟨writer, w, ?_, found, same, inStep.started writer w found silent⟩
    rw [inStep.entries address pid entry, ← same, ← inStep.named writer w found]
    exact inStep.registered writer w found (Phase.unannounced_live silent)
  · exact absurd queued handled

def parcel : StreamDeliver Nat := ⟨none, ⟨"h:1", "a"⟩, 7, false⟩

/-- A first message for an address, with the writer connected. -/
def firstContact : List (RoutingLabel Nat) :=
  [.deliver parcel, .router, .router, .router, .init .connected, .router, .router]

theorem entries_have_writers_first_contact :
    ∃ s : Routing Nat, s.streams "h:1" = some ⟨"h:0", "stream/h:1"⟩ ∧
      ∃ (writer : Nat) (w : StreamWriter Nat), s.registry "stream/h:1" = some writer ∧
        s.writers[writer]? = some w ∧ w.writeToAddr = "h:1" ∧ w.started = true := by
  obtain ⟨s, reached, ends⟩ := exists_of_run (restrict vacant step)
    (initial "h:0" false) firstContact
    (fun s : Routing Nat => s.streams "h:1" = some ⟨"h:0", "stream/h:1"⟩ ∧
      .remoteUnreachable "h:1" ∉ s.mailbox) (by decide +kernel)
  obtain ⟨entry, handled⟩ := of_decide_eq_true ends
  exact ⟨s, entry, entries_have_writers "h:0" false s reached "h:1" _ entry handled⟩

/-- The router handles the announcement and the next message before the writer has
left the registry. -/
def hastyReplacement : List (RoutingLabel Nat) :=
  firstContact ++ [.lose 0, .shutdown 0, .router, .deliver parcel, .router, .router, .router, .router,
    .shutdown 0, .shutdown 0, .shutdown 0, .shutdown 0]

/-- The replacement was rejected as a duplicate and the old writer is gone: the entry
leads nowhere, with no announcement to come. -/
theorem stale_entry_survives :
    ∃ s : Routing Nat, Reaches step (initial "h:0" false) s ∧ s.router = .receive ∧
      s.mailbox = [] ∧ (∀ w ∈ s.writers, ∀ pc, w.phase ≠ .shutdown pc) ∧
      s.streams "h:1" = some ⟨"h:0", "stream/h:1"⟩ ∧ s.registry "stream/h:1" = none := by
  obtain ⟨s, reached, ends⟩ := exists_of_run step (initial "h:0" false) hastyReplacement
    (fun s : Routing Nat => s.router = .receive ∧ s.mailbox = [] ∧
      s.writers.map (·.phase) = [.stopped, .created] ∧
      s.streams "h:1" = some ⟨"h:0", "stream/h:1"⟩ ∧ s.registry "stream/h:1" = none) (by decide +kernel)
  obtain ⟨idle, handled, phases, entry, gone⟩ := of_decide_eq_true ends
  refine ⟨s, reached, idle, handled, ?_, entry, gone⟩
  intro w member pc shutting
  have phase : w.phase ∈ s.writers.map (·.phase) := List.mem_map_of_mem member
  rw [phases, shutting] at phase
  simp at phase

end Routing

end Hollywood.Remote
