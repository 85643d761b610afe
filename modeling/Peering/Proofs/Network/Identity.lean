import Peering.Proofs.Network.Sound

/-!
# Who is at the other end

The answer to a handshake does not carry an id. The node that has accepted a connection
knows the other one by the id in the request; the node that has dialed goes on to call the
other one what the candidate was called.

Main statement: in every run, a node holds a socket that it dialed under the hash of the
candidate's id, whoever is there, and one that it accepted under the hash of the dialing
node's own id. What it sends to an active peer is written on no other socket, and of two
active entries for one node, one is on a socket that was dialed for a candidate with
another id than the node has.
-/

namespace Peering

open Endpoint (Tied Tidy)

namespace Network

variable {ι : Type} {network : Network ι} {own : ι → IdHash} {line : Line ι} {node other : ι}
  {conn : ConnId} {peer : IdHash}

/-- A node on which nothing has happened yet. -/
structure IsFresh (endpoint : Endpoint) : Prop where
  outbound : endpoint.registry.outbound = []
  inbound : endpoint.registry.inbound = []
  active : endpoint.registry.active = []
  sessions : endpoint.sessions = []
  outbox : endpoint.transport.outbox = Outbox.create endpoint.transport.outbox.limits
  templates : endpoint.templates = Endpoint.buildTemplates endpoint.settings endpoint.registry.self
    endpoint.handlers.versions

theorem isFresh_create (settings : Settings) (id : NodeId) (handlers : HandlerTable) :
    IsFresh (Endpoint.create settings id handlers) where
  outbound := rfl
  inbound := rfl
  active := rfl
  sessions := rfl
  outbox := rfl
  templates := rfl

/--
A socket on which a node should know the other one by this hash: that of the candidate if
it has dialed, that of the other node itself if it has accepted.
-/
def IsFor (own : ι → IdHash) (network : Network ι) (node : ι) (conn : ConnId) (peer : IdHash) :
    Prop :=
  ∃ line ∈ network.lines,
    (line.dialer = node ∧ line.near = some conn ∧ line.target.idHash = peer) ∨
      (line.acceptor = node ∧ line.far = some conn ∧ own line.dialer = peer)

/-- The node at the other end of a socket. -/
def Joins (network : Network ι) (node : ι) (conn : ConnId) (other : ι) : Prop :=
  ∃ line ∈ network.lines, (line.dialer = node ∧ line.near = some conn ∧ line.acceptor = other) ∨
    (line.acceptor = node ∧ line.far = some conn ∧ line.dialer = other)

theorem IsFresh.tidy {endpoint : Endpoint} (h : IsFresh endpoint) :
    Tidy (fun _ => False) endpoint.registry.self.id.hash endpoint := by
  have hcargo : endpoint.transport.outbox.cargo = [] := h.outbox ▸ Outbox.cargo_create _
  have hjobs : ∀ job, job ∉ endpoint.transport.outbox.jobs := fun job hjob => by
    obtain ⟨bytes, hmem⟩ := Outbox.mem_cargo_of_job hjob
    rw [hcargo] at hmem
    cases hmem
  have hnames := names_request (Endpoint.profile endpoint.settings endpoint.registry.self
    endpoint.handlers.versions)
  refine ⟨?_, fun dest conn hleads => ?_, fun conn session hfind => ?_,
    fun job hjob => absurd hjob (hjobs job), fun dest bytes hmem => ?_, fun _ => False.elim, rfl,
    h.templates ▸ hnames⟩
  · constructor <;> simp [h.outbound, h.inbound, h.active, Table.keys]
  · cases dest with
    | active peer =>
        obtain ⟨active, hmem, _⟩ := hleads
        rw [h.active] at hmem
        cases hmem
    | inbound key =>
        obtain ⟨pending, hmem, _⟩ := hleads
        rw [h.inbound] at hmem
        cases hmem
    | outbound key =>
        obtain ⟨pending, hmem, _⟩ := hleads
        rw [h.outbound] at hmem
        cases hmem
  · rw [h.sessions] at hfind
    cases hfind
  · rw [hcargo] at hmem
    cases hmem

theorem sound_start {opening : ι → Endpoint} (hfresh : ∀ node, IsFresh (opening node)) :
    Sound (fun node => (opening node).registry.self.id.hash) (start opening) where
  tidy := fun node => (hfresh node).tidy.congr fun conn => by simp [ends, start]
  apart := List.nodup_nil
  lines := fun _ => nofun

/-! ## Sockets and hashes -/

/-- A connection that was accepted is used for a peer only once it is tied to that peer. -/
theorem Stands.far_tied (h : network.Stands own line) (hfar : line.far = some conn)
    (hused : (∃ peer, (network.node line.acceptor).registry.Leads (.active peer) conn) ∨
      (network.node line.acceptor).transport.HasJob conn) :
    Tied (network.node line.acceptor) conn (own line.dialer) := by
  rcases h.far with ⟨got, hundecided⟩ | ⟨found, hfound, htied⟩
  · have hquiet := hundecided.far conn hfar
    rcases hused with ⟨peer, hleads⟩ | hjob
    · cases hquiet.aside _ hleads
    · exact absurd hjob hquiet.idle
  · obtain rfl := Option.some.inj (hfar.symm.trans hfound)
    exact htied

/-- A known socket is one of the two ends of a connection. -/
theorem mem_ends : (node, conn) ∈ network.ends ↔ ∃ line ∈ network.lines,
    (line.dialer = node ∧ line.near = some conn) ∨ (line.acceptor = node ∧ line.far = some conn) := by
  simp only [ends, List.mem_flatMap, Line.ends, List.mem_append, List.mem_map, Option.mem_toList,
    Prod.mk.injEq]
  refine exists_congr fun line => and_congr_right fun _ => ?_
  constructor
  · rintro (⟨found, hnear, rfl, rfl⟩ | ⟨found, hfar, rfl, rfl⟩)
    · exact Or.inl ⟨rfl, hnear⟩
    · exact Or.inr ⟨rfl, hfar⟩
  · rintro (⟨rfl, hnear⟩ | ⟨rfl, hfar⟩)
    · exact Or.inl ⟨conn, hnear, rfl, rfl⟩
    · exact Or.inr ⟨conn, hfar, rfl, rfl⟩

theorem Sound.isFor_of_leads (h : Sound own network)
    (hleads : (network.node node).registry.Leads (.active peer) conn) :
    network.IsFor own node conn peer := by
  obtain ⟨line, hline, ⟨rfl, hnear⟩ | ⟨rfl, hfar⟩⟩ := mem_ends.mp ((h.tidy node).leads _ conn hleads)
  · exact ⟨line, hline, Or.inl ⟨rfl, hnear, (((h.lines line hline).near conn hnear).leads peer
      hleads).symm⟩⟩
  · have htied := (h.lines line hline).far_tied hfar (Or.inl ⟨peer, hleads⟩)
    exact ⟨line, hline, Or.inr ⟨rfl, hfar, (htied.leads peer hleads).symm⟩⟩

theorem Sound.isFor_of_job (h : Sound own network) {job : Job}
    (hjob : job ∈ (network.node node).transport.outbox.jobs)
    (hdest : job.message.dest = .active peer) : network.IsFor own node job.conn peer := by
  obtain ⟨line, hline, ⟨rfl, hnear⟩ | ⟨rfl, hfar⟩⟩ := mem_ends.mp ((h.tidy node).jobs job hjob).1
  · have htied := (h.lines line hline).near job.conn hnear
    exact ⟨line, hline, Or.inl ⟨rfl, hnear, (htied.jobs job hjob rfl peer hdest).symm⟩⟩
  · have htied := (h.lines line hline).far_tied hfar (Or.inr ⟨job, hjob, rfl⟩)
    exact ⟨line, hline, Or.inr ⟨rfl, hfar, (htied.jobs job hjob rfl peer hdest).symm⟩⟩

/-- A socket with a hash has a node at the other end, and under its own hash if it was accepted. -/
theorem Sound.dialed_or_own (h : Sound own network) (hfor : network.IsFor own node conn peer)
    (hjoins : network.Joins node conn other) : peer = own other ∨
      ∃ line ∈ network.lines, line.dialer = node ∧ line.near = some conn ∧
        line.acceptor = other ∧ line.target.idHash = peer := by
  obtain ⟨line, hline, hfor⟩ := hfor
  obtain ⟨found, hfound, hjoins⟩ := hjoins
  have hmem : ∀ line : Line ι, (line.dialer = node ∧ line.near = some conn) ∨
      (line.acceptor = node ∧ line.far = some conn) → (node, conn) ∈ line.ends := by
    rintro line (⟨rfl, hnear⟩ | ⟨rfl, hfar⟩)
    · simp [Line.ends, hnear]
    · simp [Line.ends, hfar]
  obtain rfl : line = found := h.line_eq hline hfound
    (hmem line (hfor.imp (fun h => ⟨h.1, h.2.1⟩) fun h => ⟨h.1, h.2.1⟩))
    (hmem found (hjoins.imp (fun h => ⟨h.1, h.2.1⟩) fun h => ⟨h.1, h.2.1⟩))
  rcases hfor with ⟨hdialer, hnear, htarget⟩ | ⟨hacceptor, hfar, hown⟩
  · rcases hjoins with ⟨_, _, hother⟩ | ⟨hacceptor, hfar, _⟩
    · exact Or.inr ⟨line, hline, hdialer, hnear, hother, htarget⟩
    · exact absurd rfl (h.ends_ne hline hnear hfar (hdialer.trans hacceptor.symm))
  · rcases hjoins with ⟨hdialer, hnear, _⟩ | ⟨_, _, hother⟩
    · exact absurd rfl (h.ends_ne hline hnear hfar (hdialer.trans hacceptor.symm))
    · exact Or.inl (hown.symm.trans (congrArg own hother))

/-- Of two active entries for one node, one is on a socket that was dialed under another hash. -/
theorem Sound.misnamed (h : Sound own network) {conn' : ConnId} {peer' : IdHash}
    (hfirst : (network.node node).registry.Leads (.active peer) conn)
    (hsecond : (network.node node).registry.Leads (.active peer') conn')
    (hjoins : network.Joins node conn other) (hjoins' : network.Joins node conn' other)
    (hne : peer ≠ peer') : ∃ line ∈ network.lines, line.dialer = node ∧ line.acceptor = other ∧
      (line.near = some conn ∨ line.near = some conn') ∧ line.target.idHash ≠ own other := by
  rcases h.dialed_or_own (h.isFor_of_leads hfirst) hjoins with hown | hdialed
  · rcases h.dialed_or_own (h.isFor_of_leads hsecond) hjoins' with hown' | hdialed
    · exact absurd (hown.trans hown'.symm) hne
    · obtain ⟨line, hline, hdialer, hnear, hacceptor, htarget⟩ := hdialed
      exact ⟨line, hline, hdialer, hacceptor, Or.inr hnear,
        fun hsame => hne (hown.trans (hsame.symm.trans htarget))⟩
  · obtain ⟨line, hline, hdialer, hnear, hacceptor, htarget⟩ := hdialed
    by_cases hown : line.target.idHash = own other
    · rcases h.dialed_or_own (h.isFor_of_leads hsecond) hjoins' with hown' | hdialed'
      · exact absurd (htarget.symm.trans (hown.trans hown'.symm)) hne
      · obtain ⟨line', hline', hdialer', hnear', hacceptor', htarget'⟩ := hdialed'
        refine ⟨line', hline', hdialer', hacceptor', Or.inr hnear', fun hown' => hne ?_⟩
        exact htarget.symm.trans (hown.trans (hown'.symm.trans htarget'))
    · exact ⟨line, hline, hdialer, hacceptor, Or.inl hnear, hown⟩

/--
Whatever nodes do, and whatever candidates they are told of, a node holds a socket that it
dialed under the hash of the candidate, and a socket that it accepted under the hash of the
dialing node's own id. Every message to an active peer is for a socket with the hash of
that peer, no hash has two entries, and of two entries for one node, one is on a socket
that was dialed for a candidate with another hash.
-/
theorem run_identity [DecidableEq ι] (opening : ι → Endpoint)
    (hfresh : ∀ node, IsFresh (opening node)) (actions : List (Action ι)) :
    let network := (start opening).run actions
    let own := fun node => (network.node node).registry.self.id.hash
    (∀ line ∈ network.lines, ∀ conn peer, line.near = some conn →
      (network.node line.dialer).registry.Leads (.active peer) conn →
      peer = line.target.idHash) ∧
    (∀ line ∈ network.lines, ∀ conn peer, line.far = some conn →
      (network.node line.acceptor).registry.Leads (.active peer) conn → peer = own line.dialer) ∧
    (∀ node, ∀ job ∈ (network.node node).transport.outbox.jobs, ∀ peer,
      job.message.dest = .active peer → network.IsFor own node job.conn peer) ∧
    (∀ node, (network.node node).registry.active.keys.Nodup) ∧
    (∀ node other conn conn' peer peer',
      (network.node node).registry.Leads (.active peer) conn →
      (network.node node).registry.Leads (.active peer') conn' →
      network.Joins node conn other → network.Joins node conn' other → peer ≠ peer' →
      ∃ line ∈ network.lines, line.dialer = node ∧ line.acceptor = other ∧
        (line.near = some conn ∨ line.near = some conn') ∧ line.target.idHash ≠ own other) := by
  intro network own
  have hrun := (sound_start hfresh).run actions
  have hown : (fun node => (opening node).registry.self.id.hash) = own :=
    funext fun node => (hrun.tidy node).identity.symm
  have h : Sound own network := hown ▸ hrun
  refine ⟨fun line hline conn peer hnear hleads => ?_, fun line hline conn peer hfar hleads => ?_,
    fun node job hjob peer hdest => h.isFor_of_job hjob hdest,
    fun node => (h.tidy node).keyed.active_keys,
    fun node other conn conn' peer peer' hfirst hsecond hjoins hjoins' hne =>
      h.misnamed hfirst hsecond hjoins hjoins' hne⟩
  · exact ((h.lines line hline).near conn hnear).leads peer hleads
  · exact ((h.lines line hline).far_tied hfar (Or.inl ⟨peer, hleads⟩)).leads peer hleads

/-! ## A candidate by hearsay -/

def stranger (byte : UInt8) (ip : IpAddress) : Endpoint :=
  Endpoint.create { Settings.default with writerLanes := 1, ip := ip } (Registry.repeatedId byte)
    HandlerTable.empty

def strangers : Side → Endpoint
  | .left => stranger 0x61 (.v4 0x0a000001)
  | .right => stranger 0x62 (.v4 0x0a000002)

/-- A candidate with the address of the node on the right, and an id that no node has. -/
def hearsay : Node :=
  Node.create (Registry.repeatedId 0x63) (.v4 0x0a000002) 30303 0

def writeRequest (side : Side) : List (Action Side) :=
  [.transport side .distribute, .transport side (.resolve 0 0), .transport side (.take 0),
    .transport side (.write 0)]

/--
Both nodes dial each other, the one on the left by hearsay. The one on the right gives up
its own connection for the other one, whose request it accepts; its own request has been
written by then, and is accepted too. A ping to the candidate is on its way in the end.
-/
def mistaking : List (Action Side) :=
  [.connect .left .right hearsay (.v4 0x0a000001) 512 512,
    .connect .right .left (Node.create (Registry.repeatedId 0x61) (.v4 0x0a000001) 30303 0)
      (.v4 0x0a000002) 512 512,
    .register 0, .register 1, .accept 0, .accept 1] ++
  writeRequest .left ++ writeRequest .right ++
  [.carryOut 0 512, .carryOut 1 512,
    .session .right 2 true, .session .right 2 true, .session .right 2 true,
    .session .left 2 true, .session .left 2 true, .session .left 2 true,
    .carryBack 0 512, .session .left 1 true,
    .transport .left (.send ⟨.active hearsay.idHash, Frame.net NetAction.ping [], 0⟩),
    .transport .left .distribute, .transport .left (.resolve 0 0)]

def mistaken : Network Side :=
  (start strangers).run mistaking

/-- What there is in the end: two connections, and a ping for the candidate. -/
theorem mistaken_ends :
    (∃ line ∈ mistaken.lines, line.dialer = .left ∧ line.acceptor = .right ∧ line.near = some 1 ∧
      line.far = some 2 ∧ line.target.idHash = hearsay.idHash ∧
      line.target.address = ⟨(mistaken.node .right).registry.self.ip,
        (mistaken.node .right).registry.self.port⟩) ∧
    (∃ line ∈ mistaken.lines, line.dialer = .right ∧ line.acceptor = .left ∧ line.far = some 2) ∧
    ∃ job ∈ (mistaken.node .left).transport.outbox.jobs, job.conn = 1 ∧
      job.message.dest = .active hearsay.idHash := by
  have hlines : (mistaken.lines[0]?.map fun line =>
        (line.dialer, line.acceptor, line.near, line.far)) =
        some (.left, .right, some 1, some 2) ∧
      (mistaken.lines[0]?.map fun line => (line.target.idHash, line.target.address)) =
        some (hearsay.idHash, ⟨(mistaken.node .right).registry.self.ip,
          (mistaken.node .right).registry.self.port⟩) ∧
      (mistaken.lines[1]?.map fun line => (line.dialer, line.acceptor, line.far)) =
        some (.right, .left, some 2) ∧
      ((mistaken.node .left).transport.outbox.jobs[0]?.map fun job =>
        (job.conn, job.message.dest)) = some (1, .active hearsay.idHash) := by
    decide +kernel
  obtain ⟨hthere, htarget, hback, hjob⟩ := hlines
  obtain ⟨line, hline, hends⟩ := Option.map_eq_some_iff.mp hthere
  obtain ⟨back, hbackLine, hbackEnds⟩ := Option.map_eq_some_iff.mp hback
  obtain ⟨job, hmem, hdest⟩ := Option.map_eq_some_iff.mp hjob
  rw [hline, Option.map_some, Option.some.injEq] at htarget
  simp only [Prod.mk.injEq] at hends hbackEnds hdest htarget
  exact ⟨⟨line, List.mem_of_getElem? hline, hends.1, hends.2.1, hends.2.2.1, hends.2.2.2, htarget⟩,
    ⟨back, List.mem_of_getElem? hbackLine, hbackEnds⟩, ⟨job, List.mem_of_getElem? hmem, hdest⟩⟩

/-- Which sockets are active in the end, and under which hashes. -/
theorem mistaken_active :
    (mistaken.node .left).registry.writerFor (.active hearsay.idHash) = some 1 ∧
    (mistaken.node .left).registry.writerFor
      (.active (mistaken.node .right).registry.self.id.hash) = some 2 ∧
    (mistaken.node .right).registry.writerFor
      (.active (mistaken.node .left).registry.self.id.hash) = some 2 ∧
    hearsay.idHash ≠ (mistaken.node .right).registry.self.id.hash := by
  decide +kernel

/--
The node on the left holds the connection that it dialed by hearsay under the hash of the
candidate, which is not that of the node on the right; it sends to the candidate there, and
it holds another active entry for the node on the right.
-/
theorem known_by_hearsay :
    ∃ line ∈ mistaken.lines, line.dialer = .left ∧ line.acceptor = .right ∧
      line.target.address = ⟨(mistaken.node .right).registry.self.ip,
        (mistaken.node .right).registry.self.port⟩ ∧
      line.near = some 1 ∧ line.far = some 2 ∧
      (mistaken.node .left).registry.Leads (.active line.target.idHash) 1 ∧
      (mistaken.node .right).registry.Leads
        (.active (mistaken.node .left).registry.self.id.hash) 2 ∧
      line.target.idHash ≠ (mistaken.node .right).registry.self.id.hash ∧
      (∃ job ∈ (mistaken.node .left).transport.outbox.jobs, job.conn = 1 ∧
        job.message.dest = .active line.target.idHash) ∧
      (mistaken.node .left).registry.Leads
        (.active (mistaken.node .right).registry.self.id.hash) 2 ∧
      mistaken.Joins .left 2 .right := by
  obtain ⟨⟨line, hline, hdialer, hacceptor, hnear, hfar, hhash, haddress⟩,
    ⟨back, hback, hbackDialer, hbackAcceptor, hbackFar⟩, hjob⟩ := mistaken_ends
  obtain ⟨hactive, hown, hother, hne⟩ := mistaken_active
  refine ⟨line, hline, hdialer, hacceptor, haddress, hnear, hfar, ?_⟩
  rw [hhash]
  exact ⟨Registry.leads_of_writerFor hactive, Registry.leads_of_writerFor hother, hne, hjob,
    Registry.leads_of_writerFor hown, back, hback, Or.inr ⟨hbackAcceptor, hbackFar, hbackDialer⟩⟩

theorem run_identity_of_mistaking :
    (∀ node, IsFresh (strangers node)) ∧
      (∃ job ∈ (mistaken.node .left).transport.outbox.jobs,
        mistaken.IsFor (fun node => (mistaken.node node).registry.self.id.hash) .left job.conn
          hearsay.idHash) ∧
      ∃ line ∈ mistaken.lines, line.dialer = .left ∧ line.acceptor = .right ∧
        (line.near = some 1 ∨ line.near = some 2) ∧
        line.target.idHash ≠ (mistaken.node .right).registry.self.id.hash := by
  have hfresh : ∀ node, IsFresh (strangers node) := by
    intro node
    cases node <;> exact isFresh_create _ _ _
  have hidentity := run_identity strangers hfresh mistaking
  rw [show (start strangers).run mistaking = mistaken from rfl] at hidentity
  obtain ⟨_, _, hsends, _, hentries⟩ := hidentity
  obtain ⟨⟨line, hline, hdialer, hacceptor, hnear, _⟩,
    ⟨back, hback, hbackDialer, hbackAcceptor, hbackFar⟩, ⟨job, hjob, _, hdest⟩⟩ := mistaken_ends
  obtain ⟨hactive, hown, _, hne⟩ := mistaken_active
  refine ⟨hfresh, ⟨job, hjob, hsends .left job hjob _ hdest⟩, ?_⟩
  have hthere : mistaken.Joins .left 1 .right :=
    ⟨line, hline, Or.inl ⟨hdialer, hnear, hacceptor⟩⟩
  have hback : mistaken.Joins .left 2 .right :=
    ⟨back, hback, Or.inr ⟨hbackAcceptor, hbackFar, hbackDialer⟩⟩
  exact hentries .left .right 1 2 hearsay.idHash (mistaken.node .right).registry.self.id.hash
    (Registry.leads_of_writerFor hactive) (Registry.leads_of_writerFor hown) hthere hback hne

end Network

end Peering
