import Peering.Proofs.Session.Gate

/-!
# What running leaves alone

Sessions, delivery and dispatch work on connections, queues and counts. How the
endpoint was set up, its handlers, its frames and whether it has been started, is
not theirs to change.
-/

namespace Peering

namespace Endpoint

variable {endpoint middle after : Endpoint} {session : Session} {conn : ConnId}

/-- Nothing has changed but what is under way. -/
def KeepsSetup (endpoint after : Endpoint) : Prop :=
  after = { endpoint with
    violations := after.violations
    transport := after.transport
    dispatcher := after.dispatcher
    sessions := after.sessions
    requested := after.requested }

theorem KeepsSetup.refl (endpoint : Endpoint) : KeepsSetup endpoint endpoint :=
  rfl

theorem KeepsSetup.trans (hfirst : KeepsSetup endpoint middle) (hsecond : KeepsSetup middle after) :
    KeepsSetup endpoint after := by
  unfold KeepsSetup at *
  rw [hsecond, hfirst]

theorem KeepsSetup.running (hkeeps : KeepsSetup endpoint after) :
    after.running = endpoint.running := by
  rw [hkeeps]

theorem Silent.keepsSetup (hsilent : Silent endpoint after) : KeepsSetup endpoint after := by
  unfold Silent at hsilent
  rw [hsilent]
  rfl

theorem setRegistry_keepsSetup (endpoint : Endpoint) (registry : Registry) :
    KeepsSetup endpoint (endpoint.setRegistry registry) :=
  rfl

theorem violation_keepsSetup (endpoint : Endpoint) (peer : IdHash) :
    KeepsSetup endpoint (endpoint.violation peer).1 :=
  rfl

theorem takeLatency_keepsSetup (endpoint : Endpoint) (peer : IdHash) :
    KeepsSetup endpoint (endpoint.takeLatency peer).1 := by
  unfold takeLatency
  split <;> rfl

theorem onGossip_keepsSetup (endpoint : Endpoint) (peer : IdHash) (payload : Bytes) :
    KeepsSetup endpoint (endpoint.onGossip peer payload) := by
  unfold onGossip
  split
  · exact violation_keepsSetup endpoint peer
  · exact (takeLatency_keepsSetup endpoint peer).trans (setRegistry_keepsSetup _ _)

theorem onActiveFrame_keepsSetup (endpoint : Endpoint) (peer : PeerName) (frame : Frame) :
    KeepsSetup endpoint (endpoint.onActiveFrame peer frame) := by
  refine (setRegistry_keepsSetup endpoint
    (endpoint.registry.touch endpoint.clock peer.idHash)).trans ?_
  unfold onActiveFrame onNetFrame
  dsimp only
  split
  · split
    · rfl
    split
    · rfl
    split
    · rfl
    split
    · exact onGossip_keepsSetup _ peer.idHash frame.payload
    · rfl
  · rfl

theorem Promotes.keepsSetup {name : PeerName} (hpromotes : Promotes endpoint conn after name) :
    KeepsSetup endpoint after := by
  cases hpromotes with
  | accepted node registry _ hafter => exact hafter ▸ setRegistry_keepsSetup endpoint _
  | dialed node registry latency _ hafter => exact hafter ▸ setRegistry_keepsSetup endpoint _

end Endpoint

namespace Visit

open Endpoint (KeepsSetup)

theorem keepsSetup (visit : Visit) : KeepsSetup visit.before visit.after := by
  rcases visit.course with ⟨_, hsilent⟩ | ⟨_, _, hafter, _⟩ | ⟨_, _, _, hsilent, _⟩ |
    ⟨_, _, _, hpromotes, _⟩ | ⟨_, _, _, _, _, _, hreceipt⟩
  · exact hsilent.keepsSetup
  · rw [hafter, Endpoint.onOversized]
    split
    · exact Endpoint.violation_keepsSetup _ _
    · exact .refl _
  · exact hsilent.keepsSetup
  · exact hpromotes.keepsSetup
  · cases hreceipt with
    | refused _ hsilent _ => exact hsilent.keepsSetup
    | request _ _ _ hsilent _ => exact hsilent.keepsSetup
    | response _ _ _ hpromotes _ => exact hpromotes.keepsSetup
    | active name _ _ hafter _ => exact hafter ▸ Endpoint.onActiveFrame_keepsSetup _ _ _
    | unnamed _ _ hafter _ => exact hafter ▸ .refl _

end Visit

namespace Endpoint

variable {endpoint : Endpoint} {conn : ConnId}

theorem stepSession_keepsSetup (endpoint : Endpoint) (conn : ConnId) (heeds : Bool) :
    KeepsSetup endpoint (endpoint.stepSession conn heeds) := by
  unfold stepSession
  split
  · exact .refl endpoint
  · rename_i session _
    refine (Visit.mk endpoint session heeds).keepsSetup.trans ?_
    unfold keepSession
    dsimp only
    split <;> rfl

theorem runSession_keepsSetup (endpoint : Endpoint) (conn : ConnId) :
    KeepsSetup endpoint (endpoint.runSession conn) := by
  fun_induction runSession endpoint conn with
  | case1 endpoint next hless ih => exact (stepSession_keepsSetup endpoint conn true).trans ih
  | case2 endpoint next hstays => exact stepSession_keepsSetup endpoint conn true

theorem round_keepsSetup (endpoint : Endpoint) : KeepsSetup endpoint endpoint.round.1 := by
  have hsessions : ∀ (conns : List ConnId) (start : Endpoint),
      KeepsSetup start (conns.foldl runSession start) := by
    intro conns
    induction conns with
    | nil => exact .refl
    | cons conn rest ih => exact fun start => (runSession_keepsSetup start conn).trans (ih _)
  exact (hsessions endpoint.sessions.keys endpoint).trans rfl

/-- Running until nothing moves leaves the setup as it is. -/
theorem settle_keepsSetup (endpoint : Endpoint) : KeepsSetup endpoint endpoint.settle.1 := by
  fun_induction settle endpoint with
  | case1 endpoint next calls hround hless last later hlast ih =>
      have hnext := round_keepsSetup endpoint
      rw [hround] at hnext
      rw [hlast] at ih
      exact hnext.trans ih
  | case2 endpoint next calls hround hstays =>
      have hnext := round_keepsSetup endpoint
      rwa [hround] at hnext

end Endpoint

end Peering
