import Mathlib.Data.List.Nodup
import Mathlib.Data.List.Pairwise
import Peering.Proofs.Network.Openings
import Peering.Proofs.Network.Turns

/-!
# What every run keeps

On each connection between two nodes the dialing one is tied to the candidate that it
dialed. The accepting one is tied to the dialing one itself, as soon as it has read the
request; until then nothing comes back, and what has arrived is the start of the request.
-/

namespace Peering

open Endpoint (Tied Quiet Asking Tidy Works)

/-- What a step keeps of a connection, whichever end of it is at this node. -/
structure Endpoint.Passes (conn : ConnId) (endpoint after : Endpoint) : Prop where
  tied : ∀ peer, Tied endpoint conn peer → Tied after conn peer
  asking : ∀ own got, Asking endpoint conn own got → Asking after conn own got
  quiet : ∀ got, Quiet endpoint conn got →
    Quiet after conn got ∨ ∀ peer, Names got peer → Tied after conn peer

namespace Endpoint

variable {endpoint after : Endpoint} {known : ConnId → Prop} {self : IdHash} {conn : ConnId}

theorem Works.passes (h : Works conn endpoint after) (htidy : Tidy known self endpoint) :
    Passes conn endpoint after where
  tied := fun _ => h.tied
  asking := fun _ _ => h.asking htidy
  quiet := fun _ hquiet => Or.inl (h.quiet hquiet)

/-- A step of a session passes on its own connection too. -/
theorem Tidy.step (h : Tidy known self endpoint) (conn : ConnId) (heeds : Bool) :
    Tidy known self (endpoint.stepSession conn heeds) ∧
      ∀ other, Passes other endpoint (endpoint.stepSession conn heeds) := by
  cases hfind : endpoint.sessions.find? conn with
  | none =>
      have hstill : endpoint.stepSession conn heeds = endpoint := by rw [stepSession, hfind]
      rw [hstill]
      exact ⟨h, fun other => ⟨fun _ => id, fun _ _ => id, fun _ => Or.inl⟩⟩
  | some session =>
      have hturn := stepSession_turn hfind heeds
      obtain rfl := (h.sessions conn session hfind).1
      refine ⟨hturn.tidy h hfind, fun other => ?_⟩
      by_cases hother : other = session.conn
      · subst hother
        exact ⟨fun peer => hturn.tied h.keyed hfind, fun own got hasking => hasking.step h,
          fun got hquiet => hquiet.step h⟩
      · exact (hturn.works h.keyed hother).passes h

end Endpoint

namespace Network

variable {ι : Type} {network : Network ι} {own : ι → IdHash} {line : Line ι}
  {node : ι} {endpoint : Endpoint} {got : Bytes} {index : Nat}

/-! ## What is kept -/

/-- The accepting node has got so much of the request, and has not read it. -/
structure Undecided (own : ι → IdHash) (network : Network ι) (line : Line ι) (got : Bytes) : Prop where
  near : ∀ conn, line.near = some conn →
    Asking (network.node line.dialer) conn (own line.dialer) got
  far : ∀ conn, line.far = some conn → Quiet (network.node line.acceptor) conn got
  untaken : line.near = none ∨ line.far = none → got = []

structure Stands (own : ι → IdHash) (network : Network ι) (line : Line ι) : Prop where
  near : ∀ conn, line.near = some conn →
    Tied (network.node line.dialer) conn line.target.idHash
  far : (∃ got, Undecided own network line got) ∨ ∃ conn, line.far = some conn ∧
    Tied (network.node line.acceptor) conn (own line.dialer)

structure Sound (own : ι → IdHash) (network : Network ι) : Prop where
  tidy : ∀ node, Tidy (fun conn => (node, conn) ∈ network.ends) (own node) (network.node node)
  apart : network.ends.Nodup
  lines : ∀ line ∈ network.lines, network.Stands own line

theorem Undecided.names (h : Undecided own network line got) : Names got (own line.dialer) := by
  cases hnear : line.near with
  | none =>
      rw [h.untaken (Or.inl hnear)]
      exact fun limit frame rest request hfront => nomatch hfront
  | some conn =>
      obtain ⟨lost, hnames⟩ := (h.near conn hnear).names
      exact hnames.of_append.of_append.of_append

/-- What is kept of a connection is about the nodes only. -/
theorem Stands.of_nodes {after : Network ι} (h : network.Stands own line)
    (hnode : after.node = network.node) : after.Stands own line := by
  refine ⟨fun conn hconn => hnode ▸ h.near conn hconn, ?_⟩
  rcases h.far with ⟨got, hnear, hfar, huntaken⟩ | ⟨conn, hconn, htied⟩
  · exact Or.inl ⟨got, fun conn hconn => hnode ▸ hnear conn hconn,
      fun conn hconn => hnode ▸ hfar conn hconn, huntaken⟩
  · exact Or.inr ⟨conn, hconn, hnode ▸ htied⟩

/-! ## Steps of one node -/

variable [DecidableEq ι]

theorem update_self (network : Network ι) (node : ι) (endpoint : Endpoint) :
    (network.update node endpoint).node node = endpoint :=
  if_pos rfl

/-- What holds of the nodes holds after a step of one of them, if the step keeps it. -/
theorem of_update {P : Endpoint → Prop} {other : ι} (hold : P (network.node other))
    (hkeeps : other = node → P (network.node other) → P endpoint) :
    P ((network.update node endpoint).node other) := by
  unfold update
  dsimp only
  split
  · rename_i hsame
    exact hkeeps hsame hold
  · exact hold

/-- A step of one node keeps a connection if it keeps what is true of the ends that it has. -/
theorem Stands.update (h : network.Stands own line)
    (hnear : ∀ conn, line.dialer = node → line.near = some conn →
      (∀ peer, Tied (network.node node) conn peer → Tied endpoint conn peer) ∧
      ∀ own got, Asking (network.node node) conn own got → Asking endpoint conn own got)
    (hfar : ∀ conn, line.acceptor = node → line.far = some conn →
      (∀ peer, Tied (network.node node) conn peer → Tied endpoint conn peer) ∧
      ∀ got, Quiet (network.node node) conn got →
        Quiet endpoint conn got ∨ ∀ peer, Names got peer → Tied endpoint conn peer) :
    (network.update node endpoint).Stands own line := by
  have htied : ∀ conn, line.far = some conn →
      Tied (network.node line.acceptor) conn (own line.dialer) →
      Tied ((network.update node endpoint).node line.acceptor) conn (own line.dialer) :=
    fun conn hconn htied => of_update (P := (Tied · conn (own line.dialer))) htied
      fun hsame _ => (hfar conn hsame hconn).1 _ (hsame ▸ htied)
  refine ⟨fun conn hconn => of_update (P := (Tied · conn line.target.idHash)) (h.near conn hconn)
    fun hsame _ => (hnear conn hsame hconn).1 _ (hsame ▸ h.near conn hconn), ?_⟩
  rcases h.far with ⟨got, hundecided⟩ | ⟨conn, hconn, hold⟩
  · have hasking : ∀ conn, line.near = some conn →
        Asking ((network.update node endpoint).node line.dialer) conn (own line.dialer) got :=
      fun conn hconn => of_update (P := (Asking · conn (own line.dialer) got))
        (hundecided.near conn hconn) fun hsame _ =>
          (hnear conn hsame hconn).2 _ _ (hsame ▸ hundecided.near conn hconn)
    cases hfar' : line.far with
    | none =>
        refine Or.inl ⟨got, hasking, fun conn hconn => ?_, hundecided.untaken⟩
        cases hfar'.symm.trans hconn
    | some conn =>
        have hquiet : Quiet ((network.update node endpoint).node line.acceptor) conn got ∨
            Tied ((network.update node endpoint).node line.acceptor) conn (own line.dialer) :=
          of_update (P := fun endpoint => Quiet endpoint conn got ∨
            Tied endpoint conn (own line.dialer)) (Or.inl (hundecided.far conn hfar'))
            fun hsame _ => ((hfar conn hsame hfar').2 got (hsame ▸ hundecided.far conn hfar')).imp_right
              fun hties => hties _ hundecided.names
        rcases hquiet with hquiet | htied
        · left
          refine ⟨got, hasking, fun found hfound => ?_, hundecided.untaken⟩
          obtain rfl := Option.some.inj (hfar'.symm.trans hfound)
          exact hquiet
        · exact Or.inr ⟨conn, rfl, htied⟩
  · exact Or.inr ⟨conn, hconn, htied conn hconn hold⟩

theorem Stands.passes (h : network.Stands own line)
    (hpasses : ∀ conn, (node, conn) ∈ line.ends → (network.node node).Passes conn endpoint) :
    (network.update node endpoint).Stands own line := by
  refine h.update (fun conn hsame hconn => ?_) fun conn hsame hconn => ?_
  · have hpass := hpasses conn (by simp [Line.ends, hsame, hconn])
    exact ⟨hpass.tied, hpass.asking⟩
  · have hpass := hpasses conn (by simp [Line.ends, hsame, hconn])
    exact ⟨hpass.tied, hpass.quiet⟩

theorem Sound.tidy_update (h : Sound own network)
    (htidy : Tidy (fun conn => (node, conn) ∈ network.ends) (own node) endpoint) (other : ι) :
    Tidy (fun conn => (other, conn) ∈ network.ends) (own other)
      ((network.update node endpoint).node other) :=
  of_update (P := Tidy _ (own other)) (h.tidy other) fun hsame _ => hsame ▸ htidy

theorem Sound.update (h : Sound own network)
    (htidy : Tidy (fun conn => (node, conn) ∈ network.ends) (own node) endpoint)
    (hpasses : ∀ conn, (network.node node).Passes conn endpoint) :
    Sound own (network.update node endpoint) where
  tidy := h.tidy_update htidy
  apart := h.apart
  lines := fun line hline => (h.lines line hline).passes fun conn _ => hpasses conn

/-! ## New connections -/

omit [DecidableEq ι] in
theorem ends_setLine (network : Network ι) {next : Line ι} {new : ι × ConnId}
    (hline : network.lines[index]? = some line)
    (hends : next.ends.Perm (new :: line.ends)) :
    (network.setLine index next).ends.Perm (new :: network.ends) := by
  obtain ⟨hindex, rfl⟩ := List.getElem?_eq_some_iff.mp hline
  have hsplit := List.take_append_drop index network.lines
  rw [List.drop_eq_getElem_cons hindex] at hsplit
  rw [ends, ends, setLine, List.set_eq_take_append_cons_drop, if_pos hindex]
  conv => rhs; rw [← hsplit]
  simp only [List.flatMap_append, List.flatMap_cons]
  refine ((hends.append_right _).append_left _).trans ?_
  exact List.perm_middle

/-- A node opens its end of a connection. -/
theorem Sound.opened (h : Sound own network) (hline : network.lines[index]? = some line)
    {next : Line ι} {dest : Destination} (hfree : (network.node node).hasHandle = true)
    (hopening : (network.node node).Opening dest endpoint)
    (hsession : ∀ session, endpoint.sessions.find? (network.node node).registry.nextConn =
      some session → session.conn = (network.node node).registry.nextConn)
    (hends : next.ends.Perm ((node, (network.node node).registry.nextConn) :: line.ends))
    (hstands : (network.update node endpoint).Stands own line →
      (network.update node endpoint).Stands own next) :
    Sound own ((network.update node endpoint).setLine index next) := by
  -- A handle that is still to be given belongs to no connection, so all of them stand.
  have hunknown := (h.tidy node).unknown hfree
  have hperm : ((network.update node endpoint).setLine index next).ends.Perm
      ((node, (network.node node).registry.nextConn) :: network.ends) :=
    ends_setLine (network.update node endpoint) hline hends
  have hkept : ∀ line ∈ network.lines, (network.update node endpoint).Stands own line := by
    refine fun line hline => (h.lines line hline).passes fun conn hconn => ?_
    refine (hopening.works ?_).passes (h.tidy node)
    rintro rfl
    exact hunknown (List.mem_flatMap.mpr ⟨line, hline, hconn⟩)
  refine ⟨fun other => ?_, hperm.nodup_iff.mpr (List.nodup_cons.mpr ⟨hunknown, h.apart⟩), ?_⟩
  · have hmem : ∀ conn, (other, conn) ∈ ((network.update node endpoint).setLine index next).ends ↔
        (other, conn) ∈ network.ends ∨
          other = node ∧ conn = (network.node node).registry.nextConn := by
      intro conn
      rw [hperm.mem_iff, List.mem_cons, Prod.mk.injEq, or_comm]
    show Tidy _ _ ((network.update node endpoint).node other)
    by_cases hother : other = node
    · subst hother
      rw [update_self]
      refine (hopening.tidy (h.tidy other) hsession).congr fun conn => ?_
      simp [hmem]
    · have hsame : (network.update node endpoint).node other = network.node other := if_neg hother
      rw [hsame]
      exact (h.tidy other).congr fun conn => by simp [hmem, hother]
  · intro found hfound
    rcases List.mem_or_eq_of_mem_set hfound with hold | rfl
    · exact (hkept found hold).of_nodes rfl
    · exact (hstands (hkept line (List.mem_of_getElem? hline))).of_nodes rfl

theorem Sound.register (h : Sound own network) (hline : network.lines[index]? = some line) :
    Sound own (network.register index line) := by
  unfold Network.register
  dsimp only
  split
  · rename_i hready
    obtain ⟨hnone, hfree⟩ := Bool.and_eq_true_iff.mp hready
    have hnear := Option.isNone_iff_eq_none.mp hnone
    have hunknown := (h.tidy line.dialer).unknown hfree
    obtain ⟨hopening, hsession⟩ :=
      (h.tidy line.dialer).dialedSocket hunknown line.target line.nearCapacity
    obtain ⟨htied, hasking⟩ := (h.tidy line.dialer).dials hunknown line.target line.nearCapacity
    refine h.opened hline hfree hopening (fun session hfind => ?_) ?_ fun hstands => ?_
    · obtain ⟨_, _, rfl⟩ := hsession session hfind
      rfl
    · simp [Line.ends, hnear]
    · refine ⟨fun conn hconn => ?_, ?_⟩
      · cases hconn
        rw [update_self]
        exact htied
      · rcases hstands.far with ⟨got, hundecided⟩ | hdecided
        · obtain rfl := hundecided.untaken (Or.inl hnear)
          refine Or.inl ⟨[], fun conn hconn => ?_, hundecided.far, fun _ => rfl⟩
          cases hconn
          rw [update_self]
          exact hasking
        · exact Or.inr hdecided
  · exact h

theorem Sound.accept (h : Sound own network) (hline : network.lines[index]? = some line) :
    Sound own (network.accept index line) := by
  unfold Network.accept
  dsimp only
  split
  · rename_i hready
    obtain ⟨hnone, hfree⟩ := Bool.and_eq_true_iff.mp hready
    have hfar := Option.isNone_iff_eq_none.mp hnone
    have hunknown := (h.tidy line.acceptor).unknown hfree
    obtain ⟨hopening, hsession⟩ :=
      (h.tidy line.acceptor).acceptSocket hunknown line.origin line.farCapacity
    have haccepts := (h.tidy line.acceptor).accepts hunknown line.origin line.farCapacity
    refine h.opened hline hfree hopening (fun session hfind => ?_) ?_ fun hstands => ?_
    · obtain ⟨_, _, rfl⟩ := hsession session hfind
      rfl
    · simp [Line.ends, hfar]
    · refine ⟨hstands.near, ?_⟩
      obtain ⟨got, hundecided⟩ := hstands.far.resolve_right fun ⟨_, hsome, _⟩ =>
        nomatch hfar.symm.trans hsome
      obtain rfl := hundecided.untaken (Or.inr hfar)
      rcases haccepts with hquiet | htied
      · refine Or.inl ⟨[], hundecided.near, fun conn hconn => ?_, fun _ => rfl⟩
        cases hconn
        rw [update_self]
        exact hquiet
      · refine Or.inr ⟨_, rfl, ?_⟩
        rw [update_self]
        exact htied _
  · exact h

/-! ## Bytes that arrive -/

omit [DecidableEq ι] in
/-- Two connections have no socket in common. -/
theorem Sound.line_eq (h : Sound own network) {other : Line ι} (hline : line ∈ network.lines)
    (hother : other ∈ network.lines) {found : ι × ConnId} (hmem : found ∈ line.ends)
    (hfound : found ∈ other.ends) : line = other := by
  by_contra hne
  have : Std.Symm (Function.onFun List.Disjoint fun line : Line ι => line.ends) :=
    ⟨fun _ _ hdisjoint _ hmem hother => hdisjoint hother hmem⟩
  exact (List.nodup_flatMap.mp h.apart).2.forall hline hother hne hmem hfound

section Carry

variable {writer reader : ι} {source sink : ConnId} {most : Nat}

/-- A tied connection stays tied, whatever is carried on it or on another one. -/
theorem Sound.tied_carry (h : Sound own network) {conn : ConnId} {peer : IdHash}
    (htied : Tied (network.node node) conn peer) :
    Tied ((network.carry writer source reader sink most).node node) conn peer := by
  have hmiddle := h.tidy_update ((h.tidy writer).handOver source most) reader
  have hgiven : Tied ((network.update writer ((network.node writer).handOver source most).1).node
      node) conn peer :=
    of_update (P := (Tied · conn peer)) htied fun hsame _ =>
      (hsame ▸ htied : Tied (network.node writer) conn peer).handOver source most
  exact of_update (P := (Tied · conn peer)) hgiven fun hsame hold =>
    (hsame ▸ hold : Tied (Network.node _ reader) conn peer).receive hmiddle

/-- What is carried on one connection passes by all the others. -/
theorem Sound.carry (h : Sound own network) (hline : line ∈ network.lines)
    (hsource : (writer, source) ∈ line.ends) (hsink : (reader, sink) ∈ line.ends)
    (hstands : (network.carry writer source reader sink most).Stands own line) :
    Sound own (network.carry writer source reader sink most) := by
  have hmiddle := h.tidy_update ((h.tidy writer).handOver source most)
  refine ⟨fun node => ?_, h.apart, fun found hfound => ?_⟩
  · exact of_update (P := Tidy _ (own node)) (hmiddle node) fun hsame _ =>
      hsame ▸ (hmiddle reader).receive sink _
  by_cases hsame : found = line
  · exact hsame ▸ hstands
  have hgiven : (network.update writer ((network.node writer).handOver source most).1).Stands own
      found := by
    refine (h.lines found hfound).passes fun conn hconn => ?_
    refine (Endpoint.works_handOver (fun heq => ?_) most).passes (h.tidy writer)
    exact hsame (h.line_eq hfound hline hconn (heq ▸ hsource))
  refine hgiven.passes fun conn hconn => ?_
  refine (Endpoint.works_receive (hmiddle reader) (Or.inl fun heq => ?_)).passes (hmiddle reader)
  exact hsame (h.line_eq hfound hline hconn (heq ▸ hsink))

end Carry

section Ends

variable {near far : ConnId} (h : Sound own network) (hline : line ∈ network.lines)
  (hnear : line.near = some near) (hfar : line.far = some far) (most : Nat)

include h hline hnear hfar

omit [DecidableEq ι] in
theorem Sound.ends_ne (hsame : line.dialer = line.acceptor) : near ≠ far := by
  rintro rfl
  have hapart := (List.nodup_flatMap.mp h.apart).1 line hline
  simp [Line.ends, hnear, hfar, hsame] at hapart

/-- What the dialing node has written before the other one has read its request is part of it. -/
theorem Sound.carryOut :
    Sound own (network.carry line.dialer near line.acceptor far most) := by
  refine h.carry hline (by simp [Line.ends, hnear]) (by simp [Line.ends, hfar]) ⟨?_, ?_⟩
  · exact fun conn hconn => h.tied_carry ((h.lines line hline).near conn hconn)
  rcases (h.lines line hline).far with ⟨got, hundecided⟩ | ⟨conn, hconn, htied⟩
  -- A node may have dialed itself, and then both sockets are at the endpoint that is updated.
  · have hmiddle := h.tidy_update ((h.tidy line.dialer).handOver near most) line.acceptor
    left
    refine ⟨got ++ ((network.node line.dialer).handOver near most).2, fun conn hconn => ?_,
      fun conn hconn => ?_, fun hnone => ?_⟩
    · obtain rfl := Option.some.inj (hnear.symm.trans hconn)
      refine of_update (P := (Asking · near (own line.dialer) _)) ?_ fun hsame hold => ?_
      · rw [update_self]
        exact (hundecided.near near hnear).handOver most
      · exact (Endpoint.works_receive hmiddle (Or.inl (h.ends_ne hline hnear hfar hsame))).asking
          hmiddle (hsame ▸ hold)
    · obtain rfl := Option.some.inj (hfar.symm.trans hconn)
      rw [Network.carry, update_self]
      refine Quiet.receive ?_ hmiddle _
      refine of_update (P := (Quiet · far got)) (hundecided.far far hfar) fun hsame hold => ?_
      exact (Endpoint.works_handOver (h.ends_ne hline hnear hfar hsame.symm).symm most).quiet
        (hsame ▸ hold)
    · rcases hnone with hnone | hnone
      · cases hnear.symm.trans hnone
      · cases hfar.symm.trans hnone
  · exact Or.inr ⟨conn, hconn, h.tied_carry htied⟩

/-- Nothing comes back before the accepting node has read the request. -/
theorem Sound.carryBack :
    Sound own (network.carry line.acceptor far line.dialer near most) := by
  refine h.carry hline (by simp [Line.ends, hfar]) (by simp [Line.ends, hnear]) ⟨?_, ?_⟩
  · exact fun conn hconn => h.tied_carry ((h.lines line hline).near conn hconn)
  rcases (h.lines line hline).far with ⟨got, hundecided⟩ | ⟨conn, hconn, htied⟩
  · have hmiddle := h.tidy_update ((h.tidy line.acceptor).handOver far most) line.dialer
    obtain ⟨hnothing, hquiet⟩ := (hundecided.far far hfar).handOver most
    left
    refine ⟨got, fun conn hconn => ?_, fun conn hconn => ?_, hundecided.untaken⟩
    · obtain rfl := Option.some.inj (hnear.symm.trans hconn)
      rw [Network.carry, update_self]
      refine (Endpoint.works_receive hmiddle (Or.inr hnothing)).asking hmiddle ?_
      refine of_update (P := (Asking · near (own line.dialer) got)) (hundecided.near near hnear)
        fun hsame hold => ?_
      exact (Endpoint.works_handOver (h.ends_ne hline hnear hfar hsame) most).asking
        (h.tidy line.acceptor) (hsame ▸ hold)
    · obtain rfl := Option.some.inj (hfar.symm.trans hconn)
      refine of_update (P := (Quiet · far got)) ?_ fun hsame hold => ?_
      · rw [update_self]
        exact hquiet
      · exact (Endpoint.works_receive hmiddle (Or.inr hnothing)).quiet (hsame ▸ hold)
  · exact Or.inr ⟨conn, hconn, h.tied_carry htied⟩

end Ends

/-! ## Runs -/

omit [DecidableEq ι] in
theorem Sound.connect (h : Sound own network) (hends : line.ends = []) (hnear : line.near = none)
    (hfar : line.far = none) : Sound own { network with lines := network.lines ++ [line] } := by
  have hsame : ({ network with lines := network.lines ++ [line] } : Network ι).ends =
      network.ends := by
    simp [ends, hends]
  refine ⟨fun node => hsame ▸ h.tidy node, hsame ▸ h.apart, fun found hfound => ?_⟩
  rcases List.mem_append.mp hfound with hold | hnew
  · exact (h.lines found hold).of_nodes rfl
  · obtain rfl := List.mem_singleton.mp hnew
    refine ⟨fun conn hconn => ?_, Or.inl ⟨[], fun conn hconn => ?_, fun conn hconn => ?_,
      fun _ => rfl⟩⟩
    · cases hnear.symm.trans hconn
    · cases hnear.symm.trans hconn
    · cases hfar.symm.trans hconn

omit [DecidableEq ι] in
theorem Sound.onLine (h : Sound own network) {change : Line ι → Network ι}
    (hchange : ∀ line, network.lines[index]? = some line → Sound own (change line)) :
    Sound own (network.onLine index change) := by
  unfold Network.onLine
  split
  · exact h
  · rename_i line hline
    exact hchange line hline

omit [DecidableEq ι] in
theorem Sound.onHandles (h : Sound own network) {change : Line ι → ConnId → ConnId → Network ι}
    (hchange : ∀ line near far, line ∈ network.lines → line.near = some near →
      line.far = some far → Sound own (change line near far)) :
    Sound own (network.onHandles index change) := by
  refine h.onLine fun line hline => ?_
  split
  · rename_i near far hnear hfar
    exact hchange line near far (List.mem_of_getElem? hline) hnear hfar
  · exact h

theorem Sound.act (h : Sound own network) (action : Action ι) : Sound own (network.act action) := by
  cases action with
  | connect dialer acceptor target origin nearCapacity farCapacity => exact h.connect rfl rfl rfl
  | register index => exact h.onLine fun _ => h.register
  | accept index => exact h.onLine fun _ => h.accept
  | session node conn heeds =>
      obtain ⟨htidy, hpasses⟩ := (h.tidy node).step conn heeds
      exact h.update htidy hpasses
  | transport node action =>
      unfold Network.act
      dsimp only
      split
      · rename_i hinternal
        exact h.update ((h.tidy node).act hinternal) fun conn =>
          (Endpoint.works_act (h.tidy node) hinternal conn).passes (h.tidy node)
      · exact h
  | carryOut index most =>
      exact h.onHandles fun _ _ _ hline hnear hfar => h.carryOut hline hnear hfar most
  | carryBack index most =>
      exact h.onHandles fun _ _ _ hline hnear hfar => h.carryBack hline hnear hfar most
  | endStream node conn =>
      exact h.update ((h.tidy node).endStream conn) fun other =>
        (Endpoint.works_endStream _ conn other).passes (h.tidy node)
  | tick node duration =>
      exact h.update ((h.tidy node).tick duration) fun other =>
        (Endpoint.works_tick _ duration other).passes (h.tidy node)
  | announce node port versions =>
      exact h.update ((h.tidy node).announce port versions) fun other =>
        (Endpoint.works_announce _ port versions other).passes (h.tidy node)
  | adopt node other =>
      exact h.update ((h.tidy node).adopt other) fun conn =>
        (Endpoint.works_adopt _ other conn).passes (h.tidy node)
  | halt node =>
      exact h.update (h.tidy node).cancelAll fun other =>
        (Endpoint.works_cancelAll _ other).passes (h.tidy node)

theorem Sound.run (h : Sound own network) (actions : List (Action ι)) :
    Sound own (network.run actions) := by
  induction actions generalizing network with
  | nil => exact h
  | cons action rest ih => exact ih (h.act action)

end Network

end Peering
