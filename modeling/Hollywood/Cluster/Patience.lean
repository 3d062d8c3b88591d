import Hollywood.Cluster.Obligations
import Hollywood.Cluster.Uniqueness

/-! Requests that are not given up too early. Both `Cluster.Activate` and the agent
it asks wait for an answer only until their request times out. A request has hope
as long as it may still be granted or has been; the runs considered here give up
hopeless requests only, and spawn an actor only where no other member runs its id. -/
namespace Hollywood.Cluster

/-- A packet on the way to a granted request, or bringing the grant. -/
def Packet.hopes (packet : Packet) (number : Nat) : Bool :=
  match packet.msg with
  | .activate _ _ | .activationRequest _ _ => packet.sender.any (·.number = number)
  | .activationResponse _ true | .pid (some _) => packet.dest.replies number
  | _ => false

def Response.hopes (response : Response) : Bool :=
  match response.status with
  | .answered (.activationResponse _ true) | .answered (.pid (some _)) => true
  | _ => false

namespace State
variable {s t : State} {kind id : String} {number : Nat}

def hopes (s : State) (number : Nat) : Bool :=
  s.packets.any (·.2.hopes number) || (s.responses[number]?).any (·.hopes)

/-- A request has hope itself or through a request that was made for it. -/
def hopeful (s : State) (number : Nat) : Bool :=
  s.hopes number || (List.range s.responses.length).any fun request =>
    (s.purpose request).any (·.bills number) && s.hopes request

/-- Requests are given up only without hope, an actor is spawned only on the member that
runs its id already or when nobody does, and no agent announces nil. There are no
deactivations, no changes of membership and no actors but the activated ones. -/
def patient (s : State) : Label → Bool
  | .handle i choice =>
    s.named (.handle i choice) &&
      match s.nodes[i]?, s.next i with
      | some node, some packet =>
        (node.spawns packet choice).all fun pid =>
          s.nodes.all fun other => !other.runs pid.id || other.host = node.host
      | _, _ => true
  | .timeout i => (s.nodes[i]?).all fun node => node.waiting.all fun request => !s.hopeful request
  | .expire number => !s.hopeful number
  | .deactivate _ _ | .spawn _ _ | .provide _ _ | .stop _ _ => false
  | .activate _ _ _ | .wake _ _ | .move _ | .returns _ => true

theorem patient_named (allowed : patient s label = true) : s.named label = true := by
  cases label with
  | handle => exact (Bool.and_eq_true_iff.mp allowed).1
  | _ => rfl

theorem hopes_eq :
    s.hopes number = true ↔ (∃ entry ∈ s.packets, entry.2.hopes number = true) ∨
      ∃ response, s.responses[number]? = some response ∧ response.hopes = true := by
  rw [hopes, Bool.or_eq_true, List.any_eq_true]
  refine or_congr Iff.rfl ?_
  cases s.responses[number]? <;> simp

theorem hopeful_eq :
    s.hopeful number = true ↔ s.hopes number = true ∨
      ∃ request aim, s.purpose request = some aim ∧ aim.bills number = true ∧ s.hopes request = true := by
  rw [hopeful, Bool.or_eq_true, List.any_eq_true]
  refine or_congr Iff.rfl ?_
  constructor
  · rintro ⟨request, inside, both⟩
    rw [Bool.and_eq_true] at both
    cases known : s.purpose request with
    | none => simp [known] at both
    | some aim => exact ⟨request, aim, known, by simpa [known] using both.1, both.2⟩
  · rintro ⟨request, aim, known, bills, hope⟩
    obtain ⟨response, found, -⟩ := purpose_eq.mp known
    refine ⟨request, List.mem_range.mpr (List.getElem?_eq_some_iff.mp found).1, ?_⟩
    simp [known, bills, hope]

theorem hopes_owes {packet : Packet} (hope : packet.hopes number = true) : packet.owes number = true := by
  unfold Packet.hopes at hope
  unfold Packet.owes
  split at hope
  · rw [hope, Bool.true_or]
  · rw [hope, Bool.true_or]
  · rw [hope, Bool.or_true]
  · rw [hope, Bool.or_true]
  · cases hope

/-- An answer gives hope to the request it is for. -/
theorem hopes_reply {packet : Packet} (target : packet.dest = .response reply)
    (anonymous : packet.sender = none) (hope : packet.hopes number = true) : reply.number = number := by
  unfold Packet.hopes at hope
  split at hope
  · rw [anonymous] at hope
    cases hope
  · rw [anonymous] at hope
    cases hope
  · simpa [target, Dest.replies] using hope
  · simpa [target, Dest.replies] using hope
  · cases hope

theorem bills_eq {aim : Purpose} :
    aim.bills number = true ↔ ∃ kind id reply, aim = .activation kind id (some reply) ∧
      reply.number = number := by
  unfold Purpose.bills
  constructor
  · intro bills
    split at bills
    · rename_i kind id caller
      cases caller with
      | none => cases bills
      | some reply => exact ⟨kind, id, reply, rfl, by simpa using bills⟩
    · cases bills
    · cases bills
  · rintro ⟨kind, id, reply, rfl, rfl⟩
    simp

/-- A packet that gives hope belongs to a request that exists. -/
theorem hoped_purpose (traced : s.Traced) (hope : s.hopes number = true) :
    ∃ aim, s.purpose number = some aim := by
  rcases hopes_eq.mp hope with ⟨entry, present, hope⟩ | ⟨response, found, -⟩
  · unfold Packet.hopes at hope
    split at hope
    · rename_i asks
      obtain ⟨reply, sender, known⟩ := traced.activate present asks
      rw [sender, Option.any_some, decide_eq_true_eq] at hope
      exact ⟨_, hope ▸ known⟩
    · rename_i asks
      obtain ⟨reply, caller, sender, known⟩ := traced.request present asks
      rw [sender, Option.any_some, decide_eq_true_eq] at hope
      exact ⟨_, hope ▸ known⟩
    · rename_i tells
      obtain ⟨reply, _, _, _, target, known⟩ := traced.response present tells
      rw [target, Dest.replies, decide_eq_true_eq] at hope
      exact ⟨_, hope ▸ known⟩
    · rename_i tells
      obtain ⟨reply, _, _, target, known⟩ := traced.pid present tells
      rw [target, Dest.replies, decide_eq_true_eq] at hope
      exact ⟨_, hope ▸ known⟩
    · cases hope
  · exact ⟨_, purpose_eq.mpr ⟨response, found, rfl⟩⟩

/-- A new packet gives hope to a new request, or passes on hope there was. -/
theorem sends_hopes (traced : s.Traced) (sent : Sends s t label p) (hope : p.hopes number = true) :
    s.hopeful number = true ∨ s.responses.length = number := by
  have asked {entry : Queue × Packet} (present : entry ∈ s.packets)
      (hope : entry.2.hopes number = true) : s.hopeful number = true :=
    hopeful_eq.mpr (.inl (hopes_eq.mpr (.inl ⟨entry, present, hope⟩)))
  cases sent with
  | activate | request => exact .inr (by simpa [Packet.hopes] using hope)
  | grant handles asks passed near nodes sender =>
    refine .inl (asked handles.present ?_)
    simp [Packet.hopes, asks, sender, hopes_reply rfl rfl hope]
  | response handles asks nodes sender =>
    refine .inl (asked handles.present ?_)
    simp [Packet.hopes, asks, sender, hopes_reply rfl rfl hope]
  | @resumeGrant i node request response pid reply order waited answered caller =>
    obtain ⟨kind, id, aim, -⟩ := traced.caller waited.asked caller
    have granted : s.hopes request = true :=
      hopes_eq.mpr (.inr ⟨response, waited.asked, by simp [Response.hopes, answered]⟩)
    refine .inl (hopeful_eq.mpr (.inr ⟨request, _, purpose_eq.mpr ⟨_, waited.asked, aim⟩, ?_, granted⟩))
    exact bills_eq.mpr ⟨kind, id, reply, rfl, hopes_reply rfl rfl hope⟩
  | _ => cases hope

theorem hopes_move (traced : s.Traced) (move : Move s label t) (hope : t.hopes number = true) :
    s.hopeful number = true ∨ s.responses.length = number := by
  have before (hope : s.hopes number = true) : s.hopeful number = true ∨ s.responses.length = number :=
    .inl (hopeful_eq.mpr (.inl hope))
  rcases hopes_eq.mp hope with ⟨entry, present, hope⟩ | ⟨response, found, hope⟩
  · rcases packets_move move entry present with ⟨old, member, same⟩ | sent
    · rw [← same] at hope
      exact before (hopes_eq.mpr (.inl ⟨old, member, hope⟩))
    · exact sends_hopes traced sent hope
  · apply before
    cases responses_move move found with
    | same old => exact hopes_eq.mpr (.inr ⟨_, old, hope⟩)
    | answer old present target same pending =>
      refine hopes_eq.mpr (.inl ⟨_, present, ?_⟩)
      unfold Response.hopes at hope
      split at hope
      · rename_i answered
        simp [Packet.hopes, Status.answered.inj answered, target, Dest.replies, same]
      · rename_i answered
        simp [Packet.hopes, Status.answered.inj answered, target, Dest.replies, same]
      · cases hope
    | activate | spawn | request | settle | close => cases hope

/-- Hope is never new to a request that is there. -/
theorem hopeful_move (traced : s.Traced) (move : Move s label t) (hope : t.hopeful number = true) :
    s.hopeful number = true ∨ s.responses.length = number := by
  rcases hopeful_eq.mp hope with own | ⟨request, aim, known, bills, own⟩
  · exact hopes_move traced move own
  · obtain ⟨kind, id, reply, rfl, rfl⟩ := bills_eq.mp bills
    rcases hopes_move traced move own with older | new
    · left
      rcases hopeful_eq.mp older with hope | ⟨_, _, asked, billed, -⟩
      · obtain ⟨aim, before⟩ := hoped_purpose traced hope
        cases known.symm.trans (purpose_move move before)
        exact hopeful_eq.mpr (.inr ⟨request, _, before, bills, hope⟩)
      · -- The agents' requests are not made on behalf of one another.
        obtain ⟨_, _, _, rfl, rfl⟩ := bills_eq.mp billed
        obtain ⟨_, ⟨⟩, origin⟩ := traced.callers asked
        cases known.symm.trans (purpose_move move origin)
    · subst new
      obtain ⟨response, found, aim⟩ := purpose_eq.mp known
      left
      cases responses_move move found with
      | same old | answer old | settle old | close old =>
        exact absurd (List.getElem?_eq_some_iff.mp old).1 (lt_irrefl _)
      | activate | spawn => cases aim
      | request handles asks =>
        obtain ⟨rfl, rfl, sender⟩ := Purpose.activation.inj aim
        refine hopeful_eq.mpr (.inl (hopes_eq.mpr (.inl ⟨_, handles.present, ?_⟩)))
        simp [Packet.hopes, asks, sender]

/-- An agent's request is open only while the agent waits for it, and a request that
is closed has no hope left. -/
structure Timely (s : State) : Prop where
  owed : s.Owed
  waited : ∀ {number : Nat} {response : Response}, s.responses[number]? = some response →
    response.ofAgent = true → (∀ pid, response.status ≠ .closed pid) →
    ∃ node ∈ s.nodes, node.waiting = some number
  finished : ∀ {number : Nat} {response : Response} {pid}, s.responses[number]? = some response →
    response.status = .closed pid → s.hopeful number = false

theorem Timely.traced (timely : s.Timely) : s.Traced := timely.owed.traced

theorem waited_move (timely : s.Timely) (move : Move s label t) {response : Response}
    (found : t.responses[number]? = some response) (agents : response.ofAgent = true)
    (opened : ∀ pid, response.status ≠ .closed pid) : ∃ node ∈ t.nodes, node.waiting = some number := by
  cases move with
  | activate kind id there =>
    rcases getElem?_snoc_cases found with old | ⟨rfl, rfl⟩
    · exact timely.waited old agents opened
    · cases agents
  | spawn id there =>
    rcases getElem?_snoc_cases found with old | ⟨rfl, rfl⟩
    · exact Pool.exists_set there (fun waits => waits) (timely.waited old agents opened)
    · cases agents
  | handle there free idle split first received =>
    have kept (next : Node) (old : s.responses[number]? = some response) :
        ∃ node ∈ s.nodes.set _ next, node.waiting = some number :=
      Pool.exists_set there (fun waits => by rw [free] at waits; cases waits)
        (timely.waited old agents opened)
    cases received with
    | there msg chosen far =>
      rcases getElem?_snoc_cases found with old | ⟨rfl, rfl⟩
      · exact kept _ old
      · exact ⟨_, List.mem_set (List.getElem?_eq_some_iff.mp there).1 _, rfl⟩
    | _ =>
      rw [List.append_nil] at found
      exact kept _ found
  | wake there waits asked | timeout there waits asked =>
    rcases getElem?_set_cases found with ⟨rfl, rfl⟩ | ⟨other, old⟩
    · exact absurd rfl (opened none)
    · refine Pool.exists_set there (fun same => ?_) (timely.waited old agents opened)
      exact absurd (Option.some.inj (waits.symm.trans same)) other
  | @answer before queue packet after reply =>
    change (s.responses.modify reply.number (·.answer packet.msg))[number]? = some response at found
    rw [List.getElem?_modify] at found
    obtain ⟨old, present, changed⟩ := Option.map_eq_some_iff.mp found
    refine timely.waited present ?_ ?_
    · rw [← agents, ← changed]
      split
      · unfold Response.answer
        split <;> rfl
      · rfl
    · intro pid closed
      apply opened pid
      rw [← changed]
      split
      · simp [Response.answer, closed]
      · exact closed
  | returns asked outside answered =>
    rcases getElem?_set_cases found with ⟨rfl, rfl⟩ | ⟨other, old⟩
    · exact absurd rfl (opened _)
    · exact timely.waited old agents opened
  | expire asked outside =>
    rcases getElem?_set_cases found with ⟨rfl, rfl⟩ | ⟨other, old⟩
    · exact absurd rfl (opened _)
    · exact timely.waited old agents opened
  | stop there =>
    exact Pool.exists_set there (fun waits => waits) (timely.waited found agents opened)
  | deactivate | provide | send | mail | lose => exact timely.waited found agents opened

/-- Once the answer to a request is there, nothing else is owed to it. -/
theorem answered_alone (owed : s.Owed) {response : Response}
    (found : s.responses[number]? = some response) (answered : response.status = .answered msg) :
    (∀ entry ∈ s.packets, ¬ entry.2.owes number = true) ∧
      ∀ node ∈ s.nodes, ¬ node.owes s.purpose number = true := by
  have held : held s.responses number = 1 := by simp [held, found, Response.owes, answered]
  have bound := owed.one number
  rw [debt, held] at bound
  exact ⟨List.countP_eq_zero.mp (by omega), List.countP_eq_zero.mp (by omega)⟩

theorem answered_hopeless (timely : s.Timely) {response : Response}
    (found : s.responses[number]? = some response) (answered : response.status = .answered msg)
    (known : s.purpose request = some aim) (bills : aim.bills number = true) :
    ¬ s.hopes request = true := by
  intro hope
  obtain ⟨asked, there, rfl⟩ := purpose_eq.mp known
  by_cases closed : ∃ pid, asked.status = .closed pid
  · obtain ⟨pid, closed⟩ := closed
    have hopeless := timely.finished there closed
    rw [hopeful_eq.mpr (.inl hope)] at hopeless
    cases hopeless
  · obtain ⟨kind, id, reply, aim, -⟩ := bills_eq.mp bills
    obtain ⟨node, member, waits⟩ := timely.waited there (by rw [Response.ofAgent, aim])
      fun pid same => closed ⟨pid, same⟩
    apply (answered_alone timely.owed found answered).2 node member
    simp [Node.owes, waits, known, bills]

/-- A request whose answer is read has no hope left. -/
theorem hopeless_read (timely : s.Timely) (move : Move s label t) {response after : Response}
    (found : s.responses[number]? = some response) (answered : response.status = .answered msg)
    (sends : ∀ p, Sends s t label p → ¬ p.hopes number = true)
    (read : t.responses[number]? = some after) (closed : after.hopes = false) :
    t.hopeful number = false := by
  obtain ⟨paid, -⟩ := answered_alone timely.owed found answered
  rw [Bool.eq_false_iff]
  intro hope
  rcases hopeful_eq.mp hope with own | ⟨request, aim, known, bills, own⟩
  · rcases hopes_eq.mp own with ⟨entry, present, hope⟩ | ⟨again, there, hope⟩
    · rcases packets_move move entry present with ⟨old, member, same⟩ | sent
      · exact paid old member (hopes_owes (same ▸ hope))
      · exact sends _ sent hope
    · cases read.symm.trans there
      rw [closed] at hope
      cases hope
  · obtain ⟨kind, id, reply, rfl, rfl⟩ := bills_eq.mp bills
    rcases hopes_move timely.traced move own with older | rfl
    · rcases hopeful_eq.mp older with hope | ⟨_, _, asked, billed, -⟩
      · obtain ⟨aim, before⟩ := hoped_purpose timely.traced hope
        cases known.symm.trans (purpose_move move before)
        exact answered_hopeless timely found answered before bills hope
      · obtain ⟨_, _, _, rfl, rfl⟩ := bills_eq.mp billed
        obtain ⟨_, ⟨⟩, origin⟩ := timely.traced.callers asked
        cases known.symm.trans (purpose_move move origin)
    · obtain ⟨new, there, aim⟩ := purpose_eq.mp known
      cases responses_move move there with
      | same old | answer old | settle old | close old =>
        exact absurd (List.getElem?_eq_some_iff.mp old).1 (lt_irrefl _)
      | activate | spawn => cases aim
      | request handles asks =>
        obtain ⟨-, -, sender⟩ := Purpose.activation.inj aim
        apply paid _ handles.present
        simp [Packet.owes, sender]

theorem hopeless_stays (traced : s.Traced) (move : Move s label t) {response : Response}
    (found : s.responses[number]? = some response) (hopeless : s.hopeful number = false) :
    t.hopeful number = false := by
  rw [Bool.eq_false_iff] at hopeless ⊢
  intro hope
  rcases hopeful_move traced move hope with before | rfl
  · exact hopeless before
  · exact lt_irrefl _ (List.getElem?_eq_some_iff.mp found).1

theorem finished_move (timely : s.Timely) (move : Move s label t) (allowed : patient s label = true)
    {response : Response} (found : t.responses[number]? = some response)
    (closed : response.status = .closed pid) : t.hopeful number = false := by
  have again := move
  have stays (old : s.responses[number]? = some response) : t.hopeful number = false :=
    hopeless_stays timely.traced again old (timely.finished old closed)
  cases move with
  | spawn | stop | deactivate | provide => cases allowed
  | activate kind id there =>
    rcases getElem?_snoc_cases found with old | ⟨rfl, rfl⟩
    · exact stays old
    · cases closed
  | handle there free idle split first received =>
    cases received with
    | there msg chosen far =>
      rcases getElem?_snoc_cases found with old | ⟨rfl, rfl⟩
      · exact stays old
      · cases closed
    | _ =>
      rw [List.append_nil] at found
      exact stays found
  | @wake i node request before msg order sends there waits asked answered idle resumed =>
    rcases getElem?_set_cases found with ⟨rfl, rfl⟩ | ⟨other, old⟩
    · refine hopeless_read timely again asked answered ?_ found rfl
      intro p sent hope
      cases sent with
      | resumeTell | resumeFail => cases hope
      | @resumeGrant _ _ _ _ _ reply _ waited granted caller =>
        -- The answer goes to the call behind the request, not to the request.
        have same : reply.number = request := hopes_reply rfl rfl hope
        obtain ⟨_, _, -, origin⟩ := timely.traced.caller waited.asked caller
        obtain ⟨_, _, _, aim⟩ := timely.traced.waiting (List.mem_of_getElem? there) waits
        rw [same] at origin
        cases origin.symm.trans aim
    · exact stays old
  | timeout there waits asked =>
    rcases getElem?_set_cases found with ⟨rfl, rfl⟩ | ⟨other, old⟩
    · refine hopeless_stays timely.traced again asked ?_
      simpa [patient, there, waits] using allowed
    · exact stays old
  | @answer before queue packet after reply =>
    apply stays
    change (s.responses.modify reply.number (·.answer packet.msg))[number]? = some response at found
    rw [List.getElem?_modify] at found
    obtain ⟨old, present, changed⟩ := Option.map_eq_some_iff.mp found
    split at changed
    · unfold Response.answer at changed
      split at changed
      · subst changed
        cases closed
      · rwa [← changed]
    · rwa [← changed]
  | returns asked outside answered =>
    rcases getElem?_set_cases found with ⟨rfl, rfl⟩ | ⟨other, old⟩
    · refine hopeless_read timely again asked answered ?_ found rfl
      intro p sent hope
      cases sent with
      | announce => cases hope
    · exact stays old
  | expire asked outside =>
    rcases getElem?_set_cases found with ⟨rfl, rfl⟩ | ⟨other, old⟩
    · refine hopeless_stays timely.traced again asked ?_
      simpa [patient] using allowed
    · exact stays old
  | send | mail | lose => exact stays found

theorem timely_move (timely : s.Timely) (move : Move s label t) (allowed : patient s label = true) :
    t.Timely where
  owed := owed_move timely.owed move
  waited := waited_move timely move
  finished := finished_move timely move allowed

theorem initial_timely (configs : List Config) : (initial configs).Timely where
  owed := initial_owed configs
  waited := by rintro _ _ ⟨⟩
  finished := by rintro _ _ _ ⟨⟩

/-- A request that has hope on the way is open for its answer. -/
theorem Timely.pending (timely : s.Timely) {response : Response} (present : entry ∈ s.packets)
    (hope : entry.2.hopes number = true) (found : s.responses[number]? = some response) :
    response.status = .pending := by
  cases status : response.status with
  | pending => rfl
  | answered msg =>
    exact absurd (hopes_owes hope) ((answered_alone timely.owed found status).1 entry present)
  | closed pid =>
    have hopeless := timely.finished found status
    rw [hopeful_eq.mpr (.inl (hopes_eq.mpr (.inl ⟨entry, present, hope⟩)))] at hopeless
    cases hopeless

end State

end Hollywood.Cluster
