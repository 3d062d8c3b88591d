import Hollywood.Cluster.Mesh

/-! No orphans. Only the agent that asked for an activation announces it, once it
has the answer. Where no request is given up while it has hope, every actor that a
request spawned is announced to every member, and the call behind it gets its PID. -/
namespace Hollywood.Cluster
open Transition

/-- The answers that bring a running actor. -/
def Message.grants : Message → Bool
  | .activationResponse _ true | .pid (some _) => true
  | _ => false

theorem Message.grants_hopes {packet : Packet} (grants : packet.msg.grants = true) :
    packet.hopes number = packet.dest.replies number := by
  unfold Message.grants at grants
  unfold Packet.hopes
  split at grants
  · simp [*]
  · simp [*]
  · cases grants

theorem Message.grants_response {response : Response} (answered : response.status = .answered msg)
    (grants : msg.grants = true) : response.hopes = true := by
  unfold Message.grants at grants
  split at grants
  · simp [Response.hopes, answered]
  · simp [Response.hopes, answered]
  · cases grants

namespace State
variable {s t : State} {kind id : String} {number call : Nat} {msg : Message}

/-- The call of `Activate` behind a request. -/
def origin (s : State) (number : Nat) : Option Nat :=
  match s.purpose number with
  | some (.activate _ _) => some number
  | some (.activation _ _ caller) => caller.map (·.number)
  | some (.spawn _) | none => none

/-- A request has its answer, or the answer is on its way. -/
def Granted (s : State) (number : Nat) (msg : Message) : Prop :=
  (∃ entry ∈ s.packets, entry.2.msg = msg ∧ entry.2.dest.replies number = true) ∨
    ∃ response, s.responses[number]? = some response ∧ response.status = .answered msg

/-- A request's caller reads the answer. -/
inductive Reads (s t : State) (number : Nat) (msg : Message) : Prop where
  | wake : Waited s i node number response → node.resume order msg response.caller = some sends →
      (∀ packet ∈ sends, (.outbox i, packet) ∈ t.packets) → Reads s t number msg
  | returns : s.responses[number]? = some response → response.ofAgent = false →
      t.responses[number]? = some { response with status := .closed (response.returned msg) } →
      Reads s t number msg

/-- The answer of a request that has hope is taken. -/
theorem answer_taken (timely : s.Timely) (present : entry ∈ s.packets)
    (grants : entry.2.msg.grants = true) (target : entry.2.dest = .response reply)
    (responses : t.responses = s.responses.modify reply.number (·.answer entry.2.msg)) :
    ∃ response, t.responses[reply.number]? = some response ∧ response.status = .answered entry.2.msg := by
  have hope : entry.2.hopes reply.number = true := by
    rw [Message.grants_hopes grants, target]
    simp [Dest.replies]
  obtain ⟨aim, known⟩ := hoped_purpose timely.traced (hopes_eq.mpr (.inl ⟨entry, present, hope⟩))
  obtain ⟨response, found, -⟩ := purpose_eq.mp known
  have pending := timely.pending present hope found
  refine ⟨_, by rw [responses, List.getElem?_modify_eq, found]; rfl, ?_⟩
  simp [Response.answer, pending]

/-- An answer that brings an actor reaches its request. -/
theorem granted_packet (meshed : s.Meshed) (timely : s.Timely) (move : Move s label t)
    (grants : entry.2.msg.grants = true) (present : entry ∈ s.packets)
    (target : entry.2.dest.replies number = true) : t.Granted number entry.2.msg := by
  obtain ⟨reply, dest, rfl⟩ : ∃ reply, entry.2.dest = .response reply ∧ reply.number = number := by
    cases dest : entry.2.dest with
    | agent pid => simp [dest, Dest.replies] at target
    | response reply => exact ⟨reply, rfl, by simpa [dest, Dest.replies] using target⟩
  rcases packets_stay move present with ⟨new, member, same⟩ | leaves
  · exact .inl ⟨new, member, by rw [same], by rw [same, target]⟩
  · right
    cases leaves with
    | handle handles =>
      obtain ⟨node, -, other⟩ := meshed.placed.addressed handles.present
      cases dest.symm.trans other
    | lose other => cases dest.symm.trans other
    | answer same responses =>
      cases dest.symm.trans same
      exact answer_taken timely present grants dest responses

/-- An answer that brings an actor is kept until it is read. -/
theorem granted_answer (move : Move s label t) (allowed : patient s label = true)
    (grants : msg.grants = true) {response : Response} (found : s.responses[number]? = some response)
    (answered : response.status = .answered msg) :
    t.responses[number]? = some response ∨ Reads s t number msg := by
  have inside : number < s.responses.length := (List.getElem?_eq_some_iff.mp found).1
  have hope : s.hopeful number = true :=
    hopeful_eq.mpr (.inl (hopes_eq.mpr (.inr ⟨response, found, Message.grants_response answered grants⟩)))
  cases move with
  | spawn | stop | deactivate | provide => cases allowed
  | activate | handle => exact .inl ((List.getElem?_append_left inside).trans found)
  | @wake i node request before _ order sends there waits asked status idle resumed =>
    by_cases same : request = number
    · subst same
      cases asked.symm.trans found
      cases status.symm.trans answered
      refine .inr (.wake ⟨there, waits, asked⟩ resumed ?_)
      intro packet sent
      exact mem_post.mpr (.inr ⟨rfl, sent⟩)
    · exact .inl ((List.getElem?_set_ne same).trans found)
  | @timeout i node request before there waits asked idle =>
    by_cases same : request = number
    · subst same
      simp [patient, there, waits, hope] at allowed
    · exact .inl ((List.getElem?_set_ne same).trans found)
  | @answer before queue packet after reply =>
    left
    change (s.responses.modify reply.number (·.answer packet.msg))[number]? = some response
    rw [List.getElem?_modify, found]
    change some (if reply.number = number then response.answer packet.msg else response) = some response
    split
    · simp [Response.answer, answered]
    · rfl
  | @returns request before _ asked outside status =>
    by_cases same : request = number
    · subst same
      cases asked.symm.trans found
      cases status.symm.trans answered
      exact .inr (.returns asked outside (List.getElem?_set_self inside))
    · exact .inl ((List.getElem?_set_ne same).trans found)
  | @expire request before asked outside =>
    by_cases same : request = number
    · subst same
      simp [patient, hope] at allowed
    · exact .inl ((List.getElem?_set_ne same).trans found)
  | send | mail | lose => exact .inl found

theorem granted_move (meshed : s.Meshed) (timely : s.Timely) (move : Move s label t)
    (allowed : patient s label = true) (grants : msg.grants = true) (granted : s.Granted number msg) :
    t.Granted number msg ∨ Reads s t number msg := by
  rcases granted with ⟨entry, present, rfl, target⟩ | ⟨response, found, answered⟩
  · exact .inl (granted_packet meshed timely move grants present target)
  · rcases granted_answer move allowed grants found answered with kept | reads
    · exact .inl (.inr ⟨response, kept, answered⟩)
    · exact .inr reads

/-- Every member knows the actor or is being told of it. -/
def Told (s : State) (pid : PID) : Prop :=
  ∀ {j : Nat} {node : Node}, s.nodes[j]? = some node →
    node.agent.activated.get? pid.id = some pid ∨
      ∃ entry ∈ s.packets, entry.2.dest = .agent node.pid ∧ entry.2.msg = .activation (some pid)

/-- A request that was made for a call has been granted. -/
def Confirmed (s : State) (call : Nat) (pid : PID) : Prop :=
  ∃ request kind id reply, s.purpose request = some (.activation kind id (some reply)) ∧
    reply.number = call ∧ s.Granted request (.activationResponse (some pid) true)

/-- The two ways on which a spawned actor becomes known. -/
def Underway (s : State) (call : Nat) (pid : PID) : Prop :=
  s.Confirmed call pid ∨ s.Told pid ∧ s.Granted call (.pid (some pid))

theorem announce_told (meshed : s.Meshed) (frames : t.nodes.map Node.frame = s.nodes.map Node.frame)
    (found : s.nodes[i]? = some node) {caller : Option Reply}
    (announced : node.announce order (some pid) caller = some sends)
    (posted : ∀ packet ∈ sends, (.outbox i, packet) ∈ t.packets) :
    t.Told pid ∧ ∀ reply, caller = some reply → t.Granted reply.number (.pid (some pid)) := by
  obtain ⟨every, rfl⟩ := Node.announce_sends announced
  constructor
  · intro j other there
    obtain ⟨before, earlier, same⟩ := frame_at frames there
    obtain ⟨member, known, target⟩ :=
      meshed.known node (List.mem_of_getElem? found) before (List.mem_of_getElem? earlier)
    refine .inr ⟨_, posted (node.send member.pid (.activation (some pid))) ?_, ?_, rfl⟩
    · exact List.mem_append_left _ (List.mem_map_of_mem (every.mem_iff.mpr known))
    · rw [← Node.pid_frame same, ← target]
      rfl
  · rintro reply rfl
    refine .inl ⟨_, posted ⟨node.host, .response reply, none, .pid (some pid)⟩ ?_, rfl, by simp [Dest.replies]⟩
    exact List.mem_append_right _ (by simp [Node.respond])

/-- What an agent knows it keeps. -/
theorem entry_kept (meshed : s.Meshed) (move : Move s label t) (allowed : patient s label = true)
    {before after : Node} {j : Nat} (earlier : s.nodes[j]? = some before) (found : t.nodes[j]? = some after)
    (known : before.agent.activated.get? x = some pid) : after.agent.activated.get? x = some pid := by
  have same (later : s.nodes[j]? = some after) : after.agent.activated.get? x = some pid := by
    cases later.symm.trans earlier
    exact known
  cases move with
  | spawn | stop | deactivate | provide => cases allowed
  | handle there free idle split first received =>
    have plain := meshed.plain _ (Queues.mem_taken split)
    rcases getElem?_set_cases found with ⟨rfl, rfl⟩ | ⟨-, old⟩
    · cases there.symm.trans earlier
      cases received with
      | actorTopology msg | members msg | deactivate msg | deactivation msg | getMembers msg =>
        simp [msg, Message.ofActivation] at plain
      | activation =>
        rw [Agent.addActivated, Keyed.get?_add, known, Option.some_or, ite_self]
      | here | request =>
        rw [Node.spawn_agent]
        exact known
      | refuse | there | ignore => exact known
      | panic fatal =>
        rw [meshed.solid.fatal (Queues.mem_taken split)] at fatal
        cases fatal
    · exact same old
  | wake there | timeout there =>
    rcases getElem?_set_cases found with ⟨rfl, rfl⟩ | ⟨-, old⟩
    · cases there.symm.trans earlier
      exact known
    · exact same old
  | activate | send | mail | lose | answer | returns | expire => exact same found

theorem told_move (meshed : s.Meshed) (truthful : s.Truthful) (move : Move s label t)
    (allowed : patient s label = true) (told : s.Told pid) : t.Told pid := by
  intro j after found
  obtain ⟨before, earlier, same⟩ := frame_at (frames_move meshed move allowed) found
  rcases told earlier with known | ⟨entry, present, target, tells⟩
  · exact .inl (entry_kept meshed move allowed earlier found known)
  · rcases packets_stay move present with ⟨new, member, kept⟩ | leaves
    · exact .inr ⟨new, member, by rw [kept, target, Node.pid_frame same], by rw [kept, tells]⟩
    · cases leaves with
      | handle handles received nodes =>
        obtain ⟨node, there, dest⟩ := meshed.placed.addressed handles.present
        cases there.symm.trans handles.found
        cases node_unique meshed.hosts there earlier (Dest.agent.inj (dest.symm.trans target))
        cases there.symm.trans earlier
        rw [nodes, List.getElem?_set_self (List.getElem?_eq_some_iff.mp there).1] at found
        cases found
        left
        cases received with
        | activation msg =>
          cases tells.symm.trans msg
          rw [Agent.addActivated, Keyed.get?_add, if_pos rfl]
          cases known : before.agent.activated.get? pid.id with
          | none => rfl
          | some other =>
            -- Another entry for the id would run as well.
            obtain ⟨entered, named⟩ := Keyed.get?_eq_some.mp known
            have runs := truthful.entered (List.mem_of_getElem? there) entered
            rw [Option.some_or, truthful.unique runs (truthful.announced present tells) named]
        | actorTopology msg | members msg | refuse msg | here msg | there msg | deactivate msg
        | deactivation msg | request msg | getMembers msg => cases tells.symm.trans msg
        | ignore answer => simp [tells, Message.isAnswer] at answer
        | panic fatal => simp [tells, Message.fatal] at fatal
      | lose other missing =>
        cases target.symm.trans other
        exact absurd rfl (missing before (List.mem_of_getElem? earlier))
      | answer other => cases target.symm.trans other

theorem confirmed_move (meshed : s.Meshed) (timely : s.Timely) (move : Move s label t)
    (allowed : patient s label = true) (confirmed : s.Confirmed call pid) : t.Underway call pid := by
  obtain ⟨request, kind, id, reply, known, rfl, granted⟩ := confirmed
  have frames := frames_move meshed move allowed
  rcases granted_move meshed timely move allowed rfl granted with kept | reads
  · exact .inl ⟨request, kind, id, reply, purpose_move move known, rfl, kept⟩
  · cases reads with
    | wake waited resumed posted =>
      obtain ⟨told, answered⟩ := announce_told meshed frames waited.found resumed posted
      refine .inr ⟨told, answered reply ?_⟩
      obtain ⟨response, found, aim⟩ := purpose_eq.mp known
      cases found.symm.trans waited.asked
      rw [Response.caller, aim]
    | returns asked outside =>
      obtain ⟨response, found, aim⟩ := purpose_eq.mp known
      cases found.symm.trans asked
      rw [Response.ofAgent, aim] at outside
      cases outside

/-- The requests of a step that spawns an actor. -/
theorem spawned_underway (meshed : s.Meshed) (timely : s.Timely) (move : Move s (.handle i choice) t)
    (allowed : patient s (.handle i choice) = true) (handles : Handles s i node packet)
    (spawns : node.spawns packet choice = some pid) :
    ∃ reply call, packet.sender = some reply ∧ s.origin reply.number = some call ∧
      t.nodes = s.nodes.set i (node.spawn (some pid) (some reply)) ∧ t.Underway call pid := by
  have frames := frames_move meshed move allowed
  have again := move
  cases move with
  | handle found free idle split first received =>
    cases found.symm.trans handles.found
    cases (next_eq split first).symm.trans handles.head
    unfold Node.spawns at spawns
    cases received with
    | here msg chosen near announced =>
      simp only [msg, chosen, near, if_true] at spawns
      obtain ⟨reply, sender, known⟩ := timely.traced.activate handles.present msg
      rw [spawns] at announced
      obtain ⟨told, answered⟩ := announce_told meshed frames found announced
        fun p sent => List.mem_append_right _ (List.mem_map_of_mem sent)
      refine ⟨reply, reply.number, sender, by rw [origin, known], ?_, .inr ⟨told, answered reply sender⟩⟩
      rw [spawns, sender]
    | request msg =>
      simp only [msg] at spawns
      obtain ⟨reply, caller, sender, known⟩ := timely.traced.request handles.present msg
      obtain ⟨call, rfl, -⟩ := timely.traced.callers known
      refine ⟨reply, call.number, sender, by rw [origin, known]; rfl, by rw [spawns, sender],
        .inl ⟨reply.number, _, _, call, purpose_move again known, rfl, .inl ⟨(.outbox i,
          ⟨node.host, .response reply, none, .activationResponse (some pid) true⟩), ?_, rfl, ?_⟩⟩⟩
      · refine List.mem_append_right _ (List.mem_map.mpr ⟨_, ?_, rfl⟩)
        simpa [Node.respond, spawns] using sender
      · simp [Dest.replies]
    | refuse msg refused => simp [msg, refused] at spawns
    | there msg chosen far => simp [msg, chosen, far] at spawns
    | actorTopology msg | members msg | activation msg | deactivate msg | deactivation msg | getMembers msg =>
      simp [msg] at spawns
    | ignore answer =>
      split at spawns
      · simp [*, Message.isAnswer] at answer
      · simp [*, Message.isAnswer] at answer
      · cases spawns
    | panic fatal =>
      rw [meshed.solid.fatal handles.present] at fatal
      cases fatal

theorem origin_move (move : Move s label t) (known : s.origin number = some call) :
    t.origin number = some call := by
  unfold origin at known
  cases aim : s.purpose number with
  | none => simp [aim] at known
  | some aims =>
    rw [aim] at known
    unfold origin
    rw [purpose_move move aim]
    exact known

theorem origin_call (traced : s.Traced) (known : s.origin number = some call) :
    ∃ kind id, s.purpose call = some (.activate kind id) := by
  unfold origin at known
  split at known
  · rename_i aim
    cases known
    exact ⟨_, _, aim⟩
  · rename_i aim
    obtain ⟨reply, rfl, origin⟩ := traced.callers aim
    cases known
    exact ⟨_, _, origin⟩
  · cases known
  · cases known

/-- A call has its PID or will get it. -/
def Secured (s : State) (call : Nat) : Prop :=
  ∃ pid, s.Confirmed call pid ∨ s.Granted call (.pid (some pid)) ∨
    ∃ response, s.responses[call]? = some response ∧ response.status = .closed (some pid)

theorem Underway.secured (underway : s.Underway call pid) : s.Secured call := by
  rcases underway with confirmed | ⟨-, granted⟩
  · exact ⟨pid, .inl confirmed⟩
  · exact ⟨pid, .inr (.inl granted)⟩

/-- A call that has returned stays so. -/
theorem closed_move (timely : s.Timely) (move : Move s label t)
    (known : s.purpose call = some (.activate kind id)) {response : Response}
    (found : s.responses[call]? = some response) (closed : response.status = .closed pid) :
    t.responses[call]? = some response := by
  have inside : call < s.responses.length := (List.getElem?_eq_some_iff.mp found).1
  cases move with
  | activate | spawn | handle => exact (List.getElem?_append_left inside).trans found
  | wake there waits | timeout there waits =>
    refine (List.getElem?_set_ne ?_).trans found
    rintro rfl
    obtain ⟨_, _, _, aim⟩ := timely.traced.waiting (List.mem_of_getElem? there) waits
    cases known.symm.trans aim
  | @answer before queue packet after reply =>
    change (s.responses.modify reply.number (·.answer packet.msg))[call]? = some response
    rw [List.getElem?_modify, found]
    change some (if reply.number = call then response.answer packet.msg else response) = some response
    split
    · simp [Response.answer, closed]
    · rfl
  | returns asked outside answered =>
    refine (List.getElem?_set_ne ?_).trans found
    rintro rfl
    cases asked.symm.trans found
    cases answered.symm.trans closed
  | expire asked outside opened =>
    refine (List.getElem?_set_ne ?_).trans found
    rintro rfl
    cases asked.symm.trans found
    exact opened pid closed
  | deactivate | provide | send | mail | lose | stop => exact found

theorem secured_move (meshed : s.Meshed) (timely : s.Timely) (move : Move s label t)
    (allowed : patient s label = true) (known : s.purpose call = some (.activate kind id))
    (secured : s.Secured call) : t.Secured call := by
  obtain ⟨pid, confirmed | granted | ⟨response, found, closed⟩⟩ := secured
  · exact (confirmed_move meshed timely move allowed confirmed).secured
  · rcases granted_move meshed timely move allowed rfl granted with kept | reads
    · exact ⟨pid, .inr (.inl kept)⟩
    · cases reads with
      | wake waited =>
        obtain ⟨_, _, _, aim⟩ := timely.traced.waiting (List.mem_of_getElem? waited.found) waited.waits
        cases known.symm.trans aim
      | returns asked outside read =>
        refine ⟨pid, .inr (.inr ⟨_, read, ?_⟩)⟩
        obtain ⟨response, found, aim⟩ := purpose_eq.mp known
        cases found.symm.trans asked
        simp [Response.returned, aim]
  · exact ⟨pid, .inr (.inr ⟨response, closed_move timely move known found closed, closed⟩)⟩

/-- Every actor is made known to all members, and the call behind it gets its PID. -/
structure Known (s : State) : Prop where
  meshed : s.Meshed
  timely : s.Timely
  truthful : s.Truthful
  told : ∀ {pid}, s.Runs pid → (∃ call, s.Confirmed call pid) ∨ s.Told pid
  served : ∀ {node actor}, node ∈ s.nodes → actor ∈ node.actors.entries →
    ∃ reply call, actor.requester = some reply ∧ s.origin reply.number = some call ∧ s.Secured call

theorem runs_told (known : s.Known) (move : Move s label t) (allowed : patient s label = true)
    (runs : t.Runs pid) : (∃ call, t.Confirmed call pid) ∨ t.Told pid := by
  obtain ⟨node, member, host, runs⟩ := runs
  have underway {call : Nat} (underway : t.Underway call pid) :
      (∃ call, t.Confirmed call pid) ∨ t.Told pid := by
    rcases underway with confirmed | ⟨told, -⟩
    · exact .inl ⟨call, confirmed⟩
    · exact .inr told
  rcases runs_origin known.meshed move allowed member runs with
    ⟨old, before, same, running⟩ | ⟨i, choice, spawner, packet, made, rfl, handles, spawns, named, same⟩
  · rcases known.told ⟨old, before, same.trans host, running⟩ with ⟨call, confirmed⟩ | told
    · exact underway (confirmed_move known.meshed known.timely move allowed confirmed)
    · exact .inr (told_move known.meshed known.truthful move allowed told)
  · obtain ⟨_, call, -, -, nodes, new⟩ := spawned_underway known.meshed known.timely move allowed handles spawns
    have address : made.address = pid.address := by
      rw [Node.spawns_address spawns, ← same, host]
    cases made
    cases pid
    cases named
    cases address
    exact underway new

theorem actors_served (known : s.Known) (move : Move s label t) (allowed : patient s label = true)
    (member : node ∈ t.nodes) (present : actor ∈ node.actors.entries) :
    ∃ reply call, actor.requester = some reply ∧ t.origin reply.number = some call ∧ t.Secured call := by
  rcases actors_origin known.meshed move allowed member present with
    ⟨_, before, -, old, running, -, same⟩ | ⟨i, choice, spawner, packet, pid, rfl, handles, spawns, rfl, -⟩
  · obtain ⟨reply, call, requester, origin, secured⟩ := known.served before running
    obtain ⟨kind, id, aim⟩ := origin_call known.timely.traced origin
    exact ⟨reply, call, same ▸ requester, origin_move move origin,
      secured_move known.meshed known.timely move allowed aim secured⟩
  · obtain ⟨reply, call, sender, origin, -, underway⟩ :=
      spawned_underway known.meshed known.timely move allowed handles spawns
    exact ⟨reply, call, sender, origin_move move origin, underway.secured⟩

theorem known_move (known : s.Known) (move : Move s label t) (allowed : patient s label = true) :
    t.Known where
  meshed := meshed_move known.meshed move allowed
  timely := timely_move known.timely move allowed
  truthful := truthful_move known.meshed known.truthful move allowed
  told := runs_told known move allowed
  served := actors_served known move allowed

/-- Every member has every member in its set. -/
def Mesh (configs : List Config) : Prop :=
  (configs.map (·.host)).Nodup ∧
    ∀ a ∈ configs, ∀ b ∈ configs, ∃ member ∈ a.node.agent.members.entries, member.pid = b.node.pid

instance (configs : List Config) : Decidable (Mesh configs) := inferInstanceAs (Decidable (_ ∧ _))

theorem initial_meshed (mesh : Mesh configs) : (initial configs).Meshed where
  hosts := by
    rw [initial_hosts]
    exact mesh.1
  known := by
    intro a first b second
    obtain ⟨config, member, rfl⟩ := List.mem_map.mp first
    obtain ⟨other, known, rfl⟩ := List.mem_map.mp second
    exact mesh.2 config member other known
  plain := by rintro _ ⟨⟩
  calls := by rintro _ ⟨⟩
  placed := initial_placed configs
  solid := initial_solid configs

theorem initial_runs {node : Node} (member : node ∈ (initial configs).nodes) : ¬ node.runs x = true := by
  obtain ⟨config, -, rfl⟩ := List.mem_map.mp member
  rintro ⟨⟩

theorem initial_known (mesh : Mesh configs) : (initial configs).Known where
  meshed := initial_meshed mesh
  timely := initial_timely configs
  truthful := by
    constructor
    · intro a b x first second runs
      exact absurd runs (initial_runs first)
    · rintro _ _ ⟨⟩
    · intro node pid member entry
      obtain ⟨config, -, rfl⟩ := List.mem_map.mp member
      rw [(config_agent config).2] at entry
      cases entry
    · rintro _ _ ⟨⟩
    · rintro _ _ _ ⟨⟩
  told := by
    rintro pid ⟨node, member, -, runs⟩
    exact absurd runs (initial_runs member)
  served := by
    intro node actor member present
    obtain ⟨config, -, rfl⟩ := List.mem_map.mp member
    cases present

/-- No message is in flight and every call has returned. -/
def quiescent (s : State) : Prop :=
  s.packets = [] ∧ ∀ response ∈ s.responses, response.ofAgent = false →
    ∃ pid, response.status = .closed pid

instance (status : Status) : Decidable (∃ pid, status = .closed pid) :=
  match status with
  | .closed pid => isTrue ⟨pid, rfl⟩
  | .pending | .answered _ => isFalse (by rintro ⟨_, ⟨⟩⟩)

instance (s : State) : Decidable s.quiescent := inferInstanceAs (Decidable (_ ∧ _))

/-- Without messages only a call that is still open has been granted anything. -/
theorem granted_quiet (quiet : s.packets = []) (granted : s.Granted number msg) :
    ∃ response, s.responses[number]? = some response ∧ response.status = .answered msg := by
  rcases granted with ⟨entry, present, -⟩ | answered
  · rw [quiet] at present
    cases present
  · exact answered

theorem quiescent_call (quiet : s.quiescent) (known : s.purpose call = some (.activate kind id)) :
    ∃ response pid, s.responses[call]? = some response ∧ response.status = .closed pid := by
  obtain ⟨response, found, aim⟩ := purpose_eq.mp known
  obtain ⟨pid, closed⟩ := quiet.2 response (List.mem_of_getElem? found) (by rw [Response.ofAgent, aim])
  exact ⟨response, pid, found, closed⟩

theorem quiescent_unconfirmed (timely : s.Timely) (quiet : s.quiescent) : ¬ s.Confirmed call pid := by
  rintro ⟨request, kind, id, reply, known, rfl, granted⟩
  obtain ⟨_, ⟨⟩, origin⟩ := timely.traced.callers known
  obtain ⟨_, _, found, closed⟩ := quiescent_call quiet origin
  obtain ⟨response, asked, answered⟩ := granted_quiet quiet.1 granted
  have hopeless := timely.finished found closed
  have hope : s.hopeful reply.number = true := by
    refine hopeful_eq.mpr (.inr ⟨request, _, known, bills_eq.mpr ⟨kind, id, reply, rfl, rfl⟩, ?_⟩)
    exact hopes_eq.mpr (.inr ⟨response, asked, by simp [Response.hopes, answered]⟩)
  rw [hope] at hopeless
  cases hopeless

/-- A call that is through, with an actor behind it, has returned the actor's PID. -/
theorem quiescent_secured (timely : s.Timely) (quiet : s.quiescent)
    (known : s.purpose call = some (.activate kind id)) (secured : s.Secured call) :
    ∃ response pid, s.responses[call]? = some response ∧ response.status = .closed (some pid) := by
  obtain ⟨pid, confirmed | granted | ⟨response, found, closed⟩⟩ := secured
  · exact absurd confirmed (quiescent_unconfirmed timely quiet)
  · obtain ⟨response, found, answered⟩ := granted_quiet quiet.1 granted
    obtain ⟨_, _, again, closed⟩ := quiescent_call quiet known
    cases found.symm.trans again
    cases answered.symm.trans closed
  · exact ⟨response, pid, found, closed⟩

/-- Whether the call with this number is the one behind an actor. -/
def Behind (s : State) (call : Nat) (actor : LocalActor) : Prop :=
  ∃ reply, actor.requester = some reply ∧ s.origin reply.number = some call

/-- In every run that gives up no request with hope, spawns no actor that another member
runs and announces no nil, a quiescent state has no orphans: every actor is in the map of every
member, and no call that returned nil has an actor running for it. -/
theorem no_orphans (configs : List Config) (mesh : Mesh configs) (s : State)
    (reached : Reaches (restrict patient step) (initial configs) s)
    (quiet : s.quiescent) :
    (∀ node ∈ s.nodes, ∀ actor ∈ node.actors.entries, ∀ member ∈ s.nodes,
      member.agent.activated.get? actor.id = some ⟨node.host, actor.id⟩) ∧
    ∀ (call : Nat) (response : Response), s.responses[call]? = some response →
      response.status = .closed none →
      ∀ node ∈ s.nodes, ∀ actor ∈ node.actors.entries, ¬ s.Behind call actor := by
  have known : s.Known := reached.invariant
    (fun known stepped => known_move known (step_move (restrict_some stepped).2)
      (restrict_some stepped).1)
    (initial_known mesh)
  constructor
  · intro node present actor runs member inside
    have running : s.Runs ⟨node.host, actor.id⟩ := ⟨node, present, rfl, runs_eq.mpr ⟨actor, runs, rfl⟩⟩
    rcases known.told running with ⟨call, confirmed⟩ | told
    · exact absurd confirmed (quiescent_unconfirmed known.timely quiet)
    · obtain ⟨j, found⟩ := List.mem_iff_getElem?.mp inside
      rcases told found with entered | ⟨entry, flying, -⟩
      · exact entered
      · rw [quiet.1] at flying
        cases flying
  · rintro call response found closed node present actor runs ⟨reply, requester, origin⟩
    obtain ⟨_, behind, same, known_origin, secured⟩ := known.served present runs
    cases requester.symm.trans same
    cases origin.symm.trans known_origin
    obtain ⟨kind, id, aim⟩ := origin_call known.timely.traced origin
    obtain ⟨_, pid, again, returned⟩ := quiescent_secured known.timely quiet aim secured
    cases found.symm.trans again
    cases closed.symm.trans returned

/-- The first member activates an actor on the second one, and all messages arrive. -/
def announcedActivation : List Label :=
  [.activate 0 "k" "1", .handle 0 (pick 1), .move (.outbox 0), .move (.channel "h:1" "h:2"),
    .handle 1 (pick 0), .move (.outbox 1), .move (.channel "h:2" "h:1"), .wake 0 (pick 0).order,
    .move (.outbox 0), .move (.outbox 0), .move (.outbox 0), .returns 0,
    .move (.channel "h:1" "h:2"), .handle 1 (pick 0), .handle 0 (pick 0)]

theorem no_orphans_remote :
    ∃ s : State, Mesh pair ∧
      Reaches (restrict patient step) (initial pair) s ∧ s.quiescent ∧
      s.nodes.map (·.actors.entries) = [[], [⟨"k/1", some ⟨"h:1", 1⟩, false⟩]] ∧
      (∀ node ∈ s.nodes, ∀ actor ∈ node.actors.entries, ∀ member ∈ s.nodes,
        member.agent.activated.get? actor.id = some ⟨node.host, actor.id⟩) ∧
      ∀ (call : Nat) (response : Response), s.responses[call]? = some response →
        response.status = .closed none →
        ∀ node ∈ s.nodes, ∀ actor ∈ node.actors.entries, ¬ s.Behind call actor := by
  obtain ⟨s, reached, ends⟩ := exists_of_run (restrict patient step)
    (initial pair) announcedActivation
    (fun s => s.quiescent ∧ s.nodes.map (·.actors.entries) = [[], [⟨"k/1", some ⟨"h:1", 1⟩, false⟩]])
    (by decide +kernel)
  obtain ⟨quiet, actors⟩ := of_decide_eq_true ends
  have mesh : Mesh pair := by decide +kernel
  exact ⟨s, mesh, reached, quiet, actors, no_orphans pair mesh s reached quiet⟩

/-- The first member asks the second one, gives up and returns nil; only then is the
request handled. -/
def lateRequest : List Label :=
  [.activate 0 "k" "1", .handle 0 (pick 1), .move (.outbox 0), .timeout 0, .move (.outbox 0),
    .returns 0, .move (.channel "h:1" "h:2"), .handle 1 (pick 0), .move (.outbox 1),
    .move (.channel "h:2" "h:1")]

theorem late_request_leaves_orphan :
    ∃ s : State, Mesh pair ∧ Reaches step (initial pair) s ∧ s.quiescent ∧
      s.responses[0]? = some ⟨"h:1", .activate "k" "1", .closed none⟩ ∧
      s.nodes.map (·.actors.entries) = [[], [⟨"k/1", some ⟨"h:1", 1⟩, false⟩]] ∧
      s.origin 1 = some 0 ∧ s.nodes.map (·.agent.activated.entries) = [[], []] := by
  obtain ⟨s, reached, ends⟩ := exists_of_run step (initial pair) lateRequest
    (fun s => s.quiescent ∧ s.responses[0]? = some ⟨"h:1", .activate "k" "1", .closed none⟩ ∧
      s.nodes.map (·.actors.entries) = [[], [⟨"k/1", some ⟨"h:1", 1⟩, false⟩]] ∧
      s.origin 1 = some 0 ∧ s.nodes.map (·.agent.activated.entries) = [[], []]) (by decide +kernel)
  exact ⟨s, by decide +kernel, reached, of_decide_eq_true ends⟩

end State

end Hollywood.Cluster
