import Iceoryx.Lib.Rendezvous
import Iceoryx.Popo.PortLaws
import Iceoryx.Roudi.Operations

namespace Iceoryx.Roudi.PortManager

open Capro Popo Lib.Rendezvous

variable {cfg : Config}

def clientServer : Lib.Rendezvous ServerPortData ClientPortData (String × String × String)
    QueuePtr where
  offered s := s.offered
  queues s := s.queues
  connected c := decide (c.connectionState = .connected)
  compatible := isCompatibleClientServer
  providerKey s := s.serviceDescription.key
  consumerKey c := c.serviceDescription.key
  name := .client
  name_injective _ _ h := QueuePtr.client.inj h
  key_eq h := by
    simp only [isCompatibleClientServer, Bool.and_eq_true, decide_eq_true_eq] at h
    exact h.1

def SenderOk (S : Nat → Option ServerPortData) (c : ClientPortData) : Prop :=
  if c.connectionState = .connected then
    ∃ j s, S j = some s ∧ isCompatibleClientServer s c = true ∧ c.queues = [.server j]
  else c.queues = []

def Resting (state : ConnectionState) : Prop :=
  state ≠ .connectRequested ∧ state ≠ .disconnectRequested

structure Sides (stale : Nat → Nat → Prop) (S : Nat → Option ServerPortData)
    (C : Nat → Option ClientPortData) : Prop where
  agreement : clientServer.Agreement stale S C
  resting : ∀ {i c}, C i = some c → Resting c.connectionState
  sender : ∀ {i c}, C i = some c → SenderOk S c

section Sides

variable {stale : Nat → Nat → Prop} {S : Nat → Option ServerPortData}
  {C : Nat → Option ClientPortData} {i j : Nat} {s s' : ServerPortData} {c c' : ClientPortData}

theorem sameServer (hd : s'.serviceDescription = s.serviceDescription)
    (hc : s'.consumerTooSlowPolicy = s.consumerTooSlowPolicy)
    (hq : s'.queueFullPolicy = s.queueFullPolicy) : clientServer.SameProvider s s' := by
  refine ⟨?_, ?_⟩
  · intro c
    simp [clientServer, isCompatibleClientServer, hd, hc, hq]
  · simp [clientServer, hd]

theorem sameClient (hd : c'.serviceDescription = c.serviceDescription)
    (hc : c'.consumerTooSlowPolicy = c.consumerTooSlowPolicy)
    (hq : c'.queueFullPolicy = c.queueFullPolicy) : clientServer.SameConsumer c c' := by
  intro s
  simp [clientServer, isCompatibleClientServer, hd, hc, hq]

theorem SenderOk.idle (hstate : c.connectionState ≠ .connected) (hq : c.queues = []) :
    SenderOk S c := by
  simpa [SenderOk, hstate] using hq

theorem SenderOk.queues_of_idle (h : SenderOk S c) (hstate : c.connectionState ≠ .connected) :
    c.queues = [] := by
  simpa [SenderOk, hstate] using h

theorem SenderOk.updateServer (h : SenderOk S c) (hs : S j = some s)
    (hsame : clientServer.SameProvider s s') : SenderOk (Function.update S j (some s')) c := by
  unfold SenderOk at *
  split
  · next hconn =>
    rw [if_pos hconn] at h
    obtain ⟨k, t, hk, hc, hq⟩ := h
    by_cases hkj : k = j
    · subst hkj
      rw [hs] at hk
      cases hk
      exact ⟨k, s', by simp, (hsame.compatible c).trans hc, hq⟩
    · exact ⟨k, t, by rw [Function.update_of_ne hkj]; exact hk, hc, hq⟩
  · next hconn => rwa [if_neg hconn] at h

theorem Sides.setIdle (h : Sides stale S C)
    (hfree : ∀ j s, S j = some s → .client i ∉ s.queues)
    (hrest : Resting c'.connectionState) (hidle : c'.connectionState ≠ .connected)
    (hq : c'.queues = []) : Sides stale S (Function.update C i (some c')) where
  agreement := h.agreement.setIdle hfree (by simpa [clientServer] using hidle)
  resting := by
    intro k t hk
    by_cases hki : k = i
    · subst hki
      simp only [Function.update_self, Option.some.injEq] at hk
      subst hk
      exact hrest
    · rw [Function.update_of_ne hki] at hk
      exact h.resting hk
  sender := by
    intro k t hk
    by_cases hki : k = i
    · subst hki
      simp only [Function.update_self, Option.some.injEq] at hk
      subst hk
      exact SenderOk.idle hidle hq
    · rw [Function.update_of_ne hki] at hk
      exact h.sender hk

theorem Sides.link (h : Sides stale S C) (hs : S j = some s) (hc : C i = some c)
    (hss : clientServer.SameProvider s s') (hcc : clientServer.SameConsumer c c')
    (hcomp : isCompatibleClientServer s c = true) (hidle : c.connectionState ≠ .connected)
    (hoff : s'.offered = true) (hconn : c'.connectionState = .connected)
    (hq : s'.queues = s.queues ++ [.client i]) (hq' : c'.queues = [.server j]) :
    Sides stale (Function.update S j (some s')) (Function.update C i (some c')) where
  agreement := by
    apply h.agreement.link hs hc hss hcc hcomp _ hoff _ hq
    · simpa [clientServer] using hidle
    · simp [clientServer, hconn]
  resting := by
    intro k t hk
    by_cases hki : k = i
    · subst hki
      simp only [Function.update_self, Option.some.injEq] at hk
      subst hk
      simp [Resting, hconn]
    · rw [Function.update_of_ne hki] at hk
      exact h.resting hk
  sender := by
    intro k t hk
    by_cases hki : k = i
    · subst hki
      simp only [Function.update_self, Option.some.injEq] at hk
      subst hk
      have hcomp' : isCompatibleClientServer s' c' = true :=
        ((hss.compatible c').trans (hcc s)).trans hcomp
      simpa [SenderOk, hconn] using ⟨j, s', by simp, hcomp', hq'⟩
    · rw [Function.update_of_ne hki] at hk
      exact (h.sender hk).updateServer hs hss

theorem Sides.setServer {stale' : Nat → Nat → Prop} (h : Sides stale S C) (hs : S j = some s)
    (hss : clientServer.SameProvider s s')
    (hagree : clientServer.Agreement stale' (Function.update S j (some s')) C) :
    Sides stale' (Function.update S j (some s')) C where
  agreement := hagree
  resting := h.resting
  sender hk := (h.sender hk).updateServer hs hss

theorem Sides.unlink (h : Sides Settled S C) (hs : S j = some s) (hc : C i = some c)
    (hss : clientServer.SameProvider s s') (hcomp : isCompatibleClientServer s c = true)
    (hoff : s'.offered = s.offered) (hq : s'.queues = s.queues.erase (.client i))
    (hrest : Resting c'.connectionState) (hidle : c'.connectionState ≠ .connected)
    (hq' : c'.queues = []) :
    Sides Settled (Function.update S j (some s')) (Function.update C i (some c')) where
  agreement := by
    apply h.agreement.unlink hs hc hss hcomp _ hoff
    · intro k hki hmem
      have hne : QueuePtr.client k ≠ .client i := fun h => hki (QueuePtr.client.inj h)
      change QueuePtr.client k ∈ s'.queues
      rw [hq]
      exact (List.mem_erase_of_ne hne).mpr hmem
    · change QueuePtr.client i ∉ s'.queues
      rw [hq]
      exact (h.agreement.nodup hs).not_mem_erase
    · simpa [clientServer] using hidle
    · change s'.queues.Sublist s.queues
      rw [hq]
      exact List.erase_sublist
  resting := by
    intro k t hk
    by_cases hki : k = i
    · subst hki
      simp only [Function.update_self, Option.some.injEq] at hk
      subst hk
      exact hrest
    · rw [Function.update_of_ne hki] at hk
      exact h.resting hk
  sender := by
    intro k t hk
    by_cases hki : k = i
    · subst hki
      simp only [Function.update_self, Option.some.injEq] at hk
      subst hk
      exact SenderOk.idle hidle hq'
    · rw [Function.update_of_ne hki] at hk
      exact (h.sender hk).updateServer hs hss

theorem Sides.setClient (h : Sides stale S C) (hc : C i = some c)
    (hcc : clientServer.SameConsumer c c') (hstate : c'.connectionState = c.connectionState)
    (hq : c'.queues = c.queues) : Sides stale S (Function.update C i (some c')) where
  agreement := h.agreement.setConsumer hc hcc (by simp [clientServer, hstate])
  resting := by
    intro k t hk
    by_cases hki : k = i
    · subst hki
      simp only [Function.update_self, Option.some.injEq] at hk
      subst hk
      rw [hstate]
      exact h.resting hc
    · rw [Function.update_of_ne hki] at hk
      exact h.resting hk
  sender := by
    intro k t hk
    by_cases hki : k = i
    · subst hki
      simp only [Function.update_self, Option.some.injEq] at hk
      subst hk
      have hsend := h.sender hc
      have hcomp : ∀ u, isCompatibleClientServer u c' = isCompatibleClientServer u c := hcc
      simpa [SenderOk, hstate, hq, hcomp] using hsend
    · rw [Function.update_of_ne hki] at hk
      exact h.sender hk

theorem Sides.free_of_idle (h : Sides stale S C) (hc : C i = some c)
    (hidle : c.connectionState ≠ .connected) :
    ∀ j s, S j = some s → .client i ∉ s.queues := by
  intro j s hs
  exact h.agreement.not_held_of_idle hc (by simpa [clientServer] using hidle) hs

theorem Sides.eraseClient (h : Sides Settled S C)
    (hfree : ∀ j s, S j = some s → .client i ∉ s.queues) :
    Sides Settled S (Function.update C i none) where
  agreement := h.agreement.eraseConsumer hfree
  resting := by
    intro k t hk
    by_cases hki : k = i
    · subst hki
      simp at hk
    · rw [Function.update_of_ne hki] at hk
      exact h.resting hk
  sender := by
    intro k t hk
    by_cases hki : k = i
    · subst hki
      simp at hk
    · rw [Function.update_of_ne hki] at hk
      exact h.sender hk

theorem Sides.eraseServer (h : Sides Settled S C) (hs : S j = some s) (hoff : s.offered = false) :
    Sides Settled (Function.update S j none) C where
  agreement := h.agreement.eraseProvider hs hoff
  resting := h.resting
  sender := by
    intro k t hk
    have hsend := h.sender hk
    unfold SenderOk at *
    split
    · next hconn =>
      rw [if_pos hconn] at hsend
      obtain ⟨l, u, hl, hc, hq⟩ := hsend
      have hlj : l ≠ j := by
        rintro rfl
        rw [hs] at hl
        cases hl
        have := (h.agreement.connected_iff hs hk hc).mp (by simp [clientServer, hconn])
        simp [clientServer, hoff] at this
      exact ⟨l, u, by rw [Function.update_of_ne hlj]; exact hl, hc, hq⟩
    · next hconn => rwa [if_neg hconn] at hsend

theorem Sides.insertServer (h : Sides stale S C) (hnone : S j = none)
    (hkey : ∀ k t, S k = some t → t.serviceDescription.key ≠ s.serviceDescription.key)
    (hq : s.queues = []) : Sides stale (Function.update S j (some s)) C where
  agreement := h.agreement.insertProvider hnone hkey hq
  resting := h.resting
  sender := by
    intro k t hk
    have hsend := h.sender hk
    unfold SenderOk at *
    split
    · next hconn =>
      rw [if_pos hconn] at hsend
      obtain ⟨l, u, hl, hc, hq⟩ := hsend
      have hlj : l ≠ j := by
        rintro rfl
        rw [hnone] at hl
        cases hl
      exact ⟨l, u, by rw [Function.update_of_ne hlj]; exact hl, hc, hq⟩
    · next hconn => rwa [if_neg hconn] at hsend

end Sides

variable {pm : PortManager} {i j : Nat} {s : ServerPortData} {c : ClientPortData}
  {m : CaproMessage}

theorem servers_get_setServer (hs : pm.servers.get j = some s) (s' : ServerPortData) :
    (pm.setServer j s').servers.get = Function.update pm.servers.get j (some s') :=
  pm.servers.get_modify_eq _ hs

theorem clients_get_setClient (hc : pm.clients.get i = some c) (c' : ClientPortData) :
    (pm.setClient i c').clients.get = Function.update pm.clients.get i (some c') :=
  pm.clients.get_modify_eq _ hc

theorem sendToServerPort_skip {acc : PortManager × Bool}
    (h : ∀ s c, acc.1.servers.get j = some s → acc.1.clients.get i = some c →
      isCompatibleClientServer s c = false) : sendToServerPort cfg m i acc j = acc := by
  obtain ⟨pm, b⟩ := acc
  unfold sendToServerPort
  simp only
  split
  · next s c hs hc => simp [h s c hs hc]
  · rfl

theorem sendToAllMatchingServerPorts_none (hc : pm.clients.get i = some c)
    (h : ∀ j s, pm.servers.get j = some s → isCompatibleClientServer s c = false) :
    sendToAllMatchingServerPorts cfg m i pm = (pm, false) := by
  apply Lib.foldl_skip
  intro j _
  apply sendToServerPort_skip
  intro s c' hs hc'
  rw [hc] at hc'
  cases hc'
  exact h j s hs

theorem sendToServerPort_eq (hs : pm.servers.get j = some s) (hc : pm.clients.get i = some c)
    (hcomp : isCompatibleClientServer s c = true) (b : Bool)
    {r : Reaction ServerPortData} {a : CaproMessage}
    (hr : s.dispatchCaProMessageAndGetPossibleResponse cfg.maxClientsPerServer j m = r)
    (ha : r.response = some a) {r' : Reaction ClientPortData}
    (hr' : c.dispatchCaProMessageAndGetPossibleResponse i a = r') :
    sendToServerPort cfg m i (pm, b) j =
      ((((pm.setServer j r.port).report r.failures).setClient i r'.port).report
        (r'.failures ++ expects r'.response.isNone), true) := by
  simp [sendToServerPort, hs, hc, hcomp, hr, ha, hr']

theorem sendToAllMatchingServerPorts_single (hs : pm.servers.get j = some s)
    (hc : pm.clients.get i = some c) (hcomp : isCompatibleClientServer s c = true)
    (huniq : ∀ k t, pm.servers.get k = some t → isCompatibleClientServer t c = true → k = j)
    {r : Reaction ServerPortData} {a : CaproMessage}
    (hr : s.dispatchCaProMessageAndGetPossibleResponse cfg.maxClientsPerServer j m = r)
    (ha : r.response = some a) {r' : Reaction ClientPortData}
    (hr' : c.dispatchCaProMessageAndGetPossibleResponse i a = r') :
    sendToAllMatchingServerPorts cfg m i pm =
      ((((pm.setServer j r.port).report r.failures).setClient i r'.port).report
        (r'.failures ++ expects r'.response.isNone), true) := by
  rw [← sendToServerPort_eq hs hc hcomp false hr ha hr']
  have hother : ∀ k, k ≠ j → ∀ t, pm.servers.get k = some t →
      isCompatibleClientServer t c = false := by
    intro k hkj t hk
    cases h : isCompatibleClientServer t c with
    | false => rfl
    | true => exact absurd (huniq k t hk h) hkj
  apply Lib.foldl_single pm.servers.content_nodup (by simp [hs])
  · intro k _ hkj
    apply sendToServerPort_skip
    intro t c' hk hc'
    rw [hc] at hc'
    cases hc'
    exact hother k hkj t hk
  · intro k _ hkj
    apply sendToServerPort_skip
    intro t c' hk hc'
    rw [sendToServerPort_eq hs hc hcomp false hr ha hr'] at hk hc'
    simp only [report, setClient, setServer, FixedPositionContainer.get_modify, if_true, hc,
      Option.map_some, Option.some.injEq, if_neg (Ne.symm hkj)] at hk hc'
    obtain ⟨st, qs, hport⟩ := c.dispatch_port i a
    rw [hr'] at hport
    rw [← hc', hport]
    exact hother k hkj t hk

theorem dispatch_connect (hnew : .client i ∉ s.queues) (hm : m.type = .connect)
    (hq : m.chunkQueueData = some (.client i)) (n : Nat) :
    (s.offered = true ∧ s.dispatchCaProMessageAndGetPossibleResponse n j m =
        { port := { s with queues := s.queues ++ [.client i] }
          response := some (s.ackMessage j) }) ∨
      ∃ fs, s.dispatchCaProMessageAndGetPossibleResponse n j m =
        { port := s, response := some s.nackMessage, failures := fs } ∧ ∀ f ∈ fs, Benign f := by
  unfold ServerPortData.dispatchCaProMessageAndGetPossibleResponse
  cases hoff : s.offered with
  | false =>
    refine Or.inr ⟨[], ?_, by simp⟩
    simp [ServerPortData.handleCaProMessageForStateNotOffered, hm]
  | true =>
    simp only [if_true, ServerPortData.handleCaProMessageForStateOffered, hm, hq, tryAddQueue,
      hnew, if_false]
    split
    · exact Or.inl ⟨trivial, by simp_all⟩
    · next h =>
      refine Or.inr ⟨[overflowOfQueueContainer], by simp_all, ?_⟩
      simp [overflowOfQueueContainer, Benign]

theorem dispatch_disconnect (hoff : s.offered = true) (hold : .client i ∈ s.queues)
    (hm : m.type = .disconnect) (hq : m.chunkQueueData = some (.client i)) (n : Nat) :
    s.dispatchCaProMessageAndGetPossibleResponse n j m =
      { port := { s with queues := s.queues.erase (.client i) }
        response := some { type := .ack, serviceDescription := s.serviceDescription } } := by
  simp [ServerPortData.dispatchCaProMessageAndGetPossibleResponse, hoff,
    ServerPortData.handleCaProMessageForStateOffered, hm, hq, tryRemoveQueue, hold]

def Sound (stale : Nat → Nat → Prop) (loud : Prop) (pm₀ pm : PortManager) : Prop :=
  Sides stale pm.servers.get pm.clients.get ∧ Adds pm₀ pm loud

theorem Sound.of_eq {stale : Nat → Nat → Prop} {loud : Prop} {pm₀ pm pm' : PortManager}
    (h : Sound stale loud pm₀ pm) (hs : pm'.servers = pm.servers) (hc : pm'.clients = pm.clients)
    (hadds : Adds pm pm' loud) : Sound stale loud pm₀ pm' :=
  ⟨by rw [hs, hc]; exact h.1, h.2.trans hadds⟩

def requesting (c : ClientPortData) : ClientPortData :=
  { c with connectionState := .connectRequested }

theorem requesting_ack (hq : c.queues = []) :
    (requesting c).dispatchCaProMessageAndGetPossibleResponse i (s.ackMessage j) =
      { port := { c with connectionState := .connected, queues := [.server j] } } := by
  simp [ClientPortData.dispatchCaProMessageAndGetPossibleResponse, requesting,
    ClientPortData.handleCaProMessageForStateConnectRequested, ServerPortData.ackMessage,
    hq, tryAddQueue, ClientPortData.maxQueues]

theorem requesting_nack (hm : m.type = .nack) :
    (requesting c).dispatchCaProMessageAndGetPossibleResponse i m =
      { port := { c with connectionState := .waitForOffer } } := by
  simp [ClientPortData.dispatchCaProMessageAndGetPossibleResponse, requesting,
    ClientPortData.handleCaProMessageForStateConnectRequested, hm]

theorem clients_get_setClient_again {C : Nat → Option ClientPortData} {c₁ : ClientPortData}
    (h : pm.clients.get = Function.update C i (some c₁)) (c' : ClientPortData) :
    (pm.setClient i c').clients.get = Function.update C i (some c') := by
  rw [clients_get_setClient (show pm.clients.get i = some c₁ by simp [h]), h,
    Function.update_idem]

/-- The answer to a CONNECT brings the client and its server into step, or sends the client
to wait for an offer.  `C` are the clients before the request. -/
theorem connect_sound (cfg : Config) (pm : PortManager) {C : Nat → Option ClientPortData}
    (h : Sides Settled pm.servers.get C)
    (hc : C i = some c) (hclients : pm.clients.get = Function.update C i (some (requesting c)))
    (hidle : c.connectionState ≠ .connected) :
    Sound Settled False pm
      (if (sendToAllMatchingServerPorts cfg (c.connectMessage i) i pm).2 = true then
        (sendToAllMatchingServerPorts cfg (c.connectMessage i) i pm).1
      else nackClient i (sendToAllMatchingServerPorts cfg (c.connectMessage i) i pm).1) := by
  have hfree := h.free_of_idle hc hidle
  have hqueues : c.queues = [] := (h.sender hc).queues_of_idle hidle
  have hc₁ : pm.clients.get i = some (requesting c) := by simp [hclients]
  have hset := fun c' => clients_get_setClient_again hclients c'
  have hwait : Sides Settled pm.servers.get
      (Function.update C i (some { c with connectionState := .waitForOffer })) :=
    h.setIdle hfree (by simp [Resting]) (by simp) hqueues
  by_cases hex : ∃ j s, pm.servers.get j = some s ∧ isCompatibleClientServer s c = true
  · obtain ⟨j, s, hs, hcomp⟩ := hex
    have hcomp₁ : isCompatibleClientServer s (requesting c) = true := hcomp
    have huniq : ∀ k t, pm.servers.get k = some t →
        isCompatibleClientServer t (requesting c) = true → k = j := by
      intro k t hk hcomp'
      exact h.agreement.provider_unique hk hs hcomp' hcomp
    obtain ⟨hoff, hreact⟩ | ⟨fs, hreact, hbenign⟩ :=
      dispatch_connect (j := j) (m := c.connectMessage i) (hfree j s hs) rfl rfl
        cfg.maxClientsPerServer
    · rw [sendToAllMatchingServerPorts_single hs hc₁ hcomp₁ huniq hreact rfl
        (requesting_ack hqueues)]
      refine ⟨?_, Adds.of_eq (by simp [report, setServer, setClient, expects])⟩
      have hlink : Sides Settled
          (Function.update pm.servers.get j
            (some { s with queues := s.queues ++ [.client i] }))
          (Function.update C i
            (some { c with connectionState := .connected, queues := [.server j] })) :=
        h.link hs hc (sameServer rfl rfl rfl) (sameClient rfl rfl rfl) hcomp hidle hoff rfl rfl rfl
      rw [← hset, ← servers_get_setServer hs] at hlink
      exact hlink
    · rw [sendToAllMatchingServerPorts_single hs hc₁ hcomp₁ huniq hreact rfl
        (requesting_nack rfl)]
      refine ⟨?_, ?_⟩
      · have hsame : (pm.setServer j s).servers.get = pm.servers.get := by
          rw [servers_get_setServer hs]
          exact Function.update_eq_self_iff.mpr hs.symm
        rw [← hset, ← hsame] at hwait
        exact hwait
      · intro f hf
        simp only [if_true, report, setClient, setServer, expects, List.append_nil,
          Option.isNone_none, List.mem_append] at hf
        exact hf.imp_right fun hf => Or.inl (hbenign f hf)
  · have hnone : ∀ j s, pm.servers.get j = some s →
        isCompatibleClientServer s (requesting c) = false := by
      intro j s hs
      cases hcomp : isCompatibleClientServer s (requesting c) with
      | false => rfl
      | true => exact absurd ⟨j, s, hs, hcomp⟩ hex
    rw [sendToAllMatchingServerPorts_none hc₁ hnone]
    have hnack : nackClient i pm =
        (pm.setClient i { c with connectionState := .waitForOffer }).report [] := by
      unfold nackClient
      rw [hc₁]
      simp only [requesting_nack]
      rfl
    simp only [Bool.false_eq_true, if_false, hnack]
    rw [← hset] at hwait
    exact ⟨hwait, Adds.of_eq (by simp [report, setClient])⟩

def disconnecting (c : ClientPortData) : ClientPortData :=
  { c with connectionState := .disconnectRequested, queues := [] }

theorem disconnect_sound (cfg : Config) (pm : PortManager) {C : Nat → Option ClientPortData}
    (h : Sides Settled pm.servers.get C)
    (hc : C i = some c) (hclients : pm.clients.get = Function.update C i (some (disconnecting c)))
    (hconn : c.connectionState = .connected) :
    ∃ pm', sendToAllMatchingServerPorts cfg (c.disconnectMessage i) i pm = (pm', true) ∧
      Sound Settled False pm pm' ∧
      pm'.clients.get i = some { c with connectionState := .notConnected, queues := [] } := by
  have hc₁ : pm.clients.get i = some (disconnecting c) := by simp [hclients]
  obtain ⟨j, s, hs, hcomp, hmem | hstale⟩ := h.agreement.linked hc (by simp [clientServer, hconn])
  · have hoff : s.offered = true := (h.agreement.held hs hmem).1
    have huniq : ∀ k t, pm.servers.get k = some t →
        isCompatibleClientServer t (disconnecting c) = true → k = j := by
      intro k t hk hcomp'
      exact h.agreement.provider_unique hk hs hcomp' hcomp
    have hreact := dispatch_disconnect (j := j) (m := c.disconnectMessage i) hoff hmem rfl rfl
      cfg.maxClientsPerServer
    have hack : (disconnecting c).dispatchCaProMessageAndGetPossibleResponse i
        { type := .ack, serviceDescription := s.serviceDescription } =
        { port := { c with connectionState := .notConnected, queues := [] } } := rfl
    refine ⟨_, sendToAllMatchingServerPorts_single hs hc₁ hcomp huniq hreact rfl hack, ?_, ?_⟩
    · refine ⟨?_, Adds.of_eq (by simp [report, setServer, setClient, expects])⟩
      have hunlink : Sides Settled
          (Function.update pm.servers.get j
            (some { s with queues := s.queues.erase (.client i) }))
          (Function.update C i
            (some { c with connectionState := .notConnected, queues := [] })) :=
        h.unlink hs hc (sameServer rfl rfl rfl) hcomp rfl rfl (by simp [Resting]) (by simp) rfl
      rw [← clients_get_setClient_again hclients, ← servers_get_setServer hs] at hunlink
      exact hunlink
    · simp [report, setServer, PortManager.setClient, hc₁]
  · exact hstale.elim

theorem client_tryGet_cases (hrest : Resting c.connectionState) (i : Nat) :
    c.tryGetCaProMessage i = { port := c } ∨
    (c.connectionState = .waitForOffer ∧
      c.tryGetCaProMessage i = { port := { c with connectionState := .notConnected } }) ∨
    (c.connectionState = .notConnected ∧ c.connectRequested = true ∧ c.tryGetCaProMessage i =
      { port := requesting c, response := some (c.connectMessage i) }) ∨
    (c.connectionState = .connected ∧ c.connectRequested = false ∧ c.tryGetCaProMessage i =
      { port := disconnecting c, response := some (c.disconnectMessage i) }) := by
  obtain ⟨h₁, h₂⟩ := hrest
  unfold ClientPortData.tryGetCaProMessage
  cases hstate : c.connectionState with
  | notConnected =>
    cases hreq : c.connectRequested <;>
      simp [ClientPortData.dispatchCaProMessageAndGetPossibleResponse, hstate,
        ClientPortData.handleCaProMessageForStateNotConnected, requesting]
  | connectRequested => exact absurd hstate h₁
  | connected =>
    cases hreq : c.connectRequested <;>
      simp [ClientPortData.dispatchCaProMessageAndGetPossibleResponse, hstate,
        ClientPortData.handleCaProMessageForStateConnected, disconnecting]
  | disconnectRequested => exact absurd hstate h₂
  | waitForOffer =>
    cases hreq : c.connectRequested <;>
      simp [ClientPortData.dispatchCaProMessageAndGetPossibleResponse, hstate,
        ClientPortData.handleCaProMessageForStateWaitForOffer, hreq]

theorem discoverClient_sound (h : Sides Settled pm.servers.get pm.clients.get) (i : Nat) :
    Sound Settled False pm (doDiscoveryForClientPort cfg i pm) := by
  unfold doDiscoveryForClientPort
  split
  · exact ⟨h, Adds.refl pm⟩
  · next c hc =>
    have hset := fun c' => clients_get_setClient hc c'
    obtain htry | ⟨hstate, htry⟩ | ⟨hstate, -, htry⟩ | ⟨hstate, -, htry⟩ :=
      client_tryGet_cases (h.resting hc) i
    · rw [htry]
      refine ⟨?_, Adds.of_eq (by simp [report, setClient])⟩
      have hsame := h.setClient hc (sameClient rfl rfl rfl) rfl rfl
      rw [← hset] at hsame
      exact hsame
    · rw [htry]
      refine ⟨?_, Adds.of_eq (by simp [report, setClient])⟩
      have hidle : c.connectionState ≠ .connected := by simp [hstate]
      have hback : Sides Settled pm.servers.get
          (Function.update pm.clients.get i (some { c with connectionState := .notConnected })) :=
        h.setIdle (h.free_of_idle hc hidle) (by simp [Resting]) (by simp)
          ((h.sender hc).queues_of_idle hidle)
      rw [← hset] at hback
      exact hback
    · rw [htry]
      have hclients : ((pm.setClient i (requesting c)).report []).clients.get =
          Function.update pm.clients.get i (some (requesting c)) := hset _
      have hsound := connect_sound cfg ((pm.setClient i (requesting c)).report []) h hc hclients
        (by simp [hstate])
      have hm : (c.connectMessage i).type = .connect := rfl
      simp only [hm, true_or, if_true]
      exact ⟨hsound.1, (Adds.of_eq (by simp [report, setClient])).trans hsound.2⟩
    · rw [htry]
      have hclients : ((pm.setClient i (disconnecting c)).report []).clients.get =
          Function.update pm.clients.get i (some (disconnecting c)) := hset _
      obtain ⟨pm', hsend, hsound, -⟩ := disconnect_sound cfg
        ((pm.setClient i (disconnecting c)).report []) h hc hclients hstate
      have hm : (c.disconnectMessage i).type = .disconnect := rfl
      simp only [hm, or_true, if_true, hsend]
      exact ⟨hsound.1, (Adds.of_eq (by simp [report, setClient])).trans hsound.2⟩

theorem destroyClient_sound (h : Sides Settled pm.servers.get pm.clients.get) (i : Nat) :
    Sound Settled False pm (destroyClientPort cfg i pm) := by
  unfold destroyClientPort
  split
  · exact ⟨h, Adds.refl pm⟩
  · next c hc =>
    have hset := fun c' => clients_get_setClient hc c'
    have herase : ∀ (pm' : PortManager) {c'}, Sound Settled False pm pm' →
        pm'.clients.get i = some c' → c'.connectionState ≠ .connected →
        Sound Settled False pm { pm' with clients := pm'.clients.erase i } := by
      intro pm' c' hsound hc' hidle
      refine ⟨?_, hsound.2⟩
      have := hsound.1.eraseClient (hsound.1.free_of_idle hc' hidle)
      rw [← pm'.clients.get_erase_eq] at this
      exact this
    have hdisc : Sides Settled pm.servers.get
        (Function.update pm.clients.get i (some c.disconnect)) :=
      h.setClient hc (sameClient rfl rfl rfl) rfl rfl
    have hdget : Function.update pm.clients.get i (some c.disconnect) i = some c.disconnect := by
      simp
    have hrest : Resting c.disconnect.connectionState := by
      have hrest := h.resting hc
      exact hrest
    obtain htry | ⟨hstate, htry⟩ | ⟨-, hreq, -⟩ | ⟨hstate, -, htry⟩ :=
      client_tryGet_cases hrest i
    · rw [htry]
      have hidle : c.disconnect.connectionState ≠ .connected := by
        intro hconn
        simp [ClientPortData.tryGetCaProMessage,
          ClientPortData.dispatchCaProMessageAndGetPossibleResponse, ClientPortData.disconnect,
          ClientPortData.handleCaProMessageForStateConnected] at htry
        have hconn' : c.connectionState = .connected := hconn
        simp [hconn'] at htry
      refine herase ((pm.setClient i c.disconnect).report []) ⟨?_, ?_⟩ ?_ hidle
      · rw [← hset] at hdisc
        exact hdisc
      · exact Adds.of_eq (by simp [report, setClient])
      · simp [report, setClient, hc]
    · rw [htry]
      have hidle : c.disconnect.connectionState ≠ .connected := by simp [hstate]
      refine herase ((pm.setClient i
        { c.disconnect with connectionState := .notConnected }).report []) ⟨?_, ?_⟩
        (by simp [report, setClient, hc]; rfl) (by simp)
      · have hback : Sides Settled pm.servers.get
            (Function.update pm.clients.get i
              (some { c.disconnect with connectionState := .notConnected })) :=
          h.setIdle (h.free_of_idle hc hidle) (by simp [Resting]) (by simp)
            ((h.sender hc).queues_of_idle hidle)
        rw [← hset] at hback
        exact hback
      · exact Adds.of_eq (by simp [report, setClient])
    · simp [ClientPortData.disconnect] at hreq
    · rw [htry]
      have hclients : ((pm.setClient i (disconnecting c.disconnect)).report []).clients.get =
          Function.update (Function.update pm.clients.get i (some c.disconnect)) i
            (some (disconnecting c.disconnect)) := by
        rw [Function.update_idem]
        exact hset _
      obtain ⟨pm', hsend, hsound, hget⟩ := disconnect_sound cfg
        ((pm.setClient i (disconnecting c.disconnect)).report []) hdisc hdget hclients hstate
      have hensures : ((pm.setClient i (disconnecting c.disconnect)).report []).report
          (expects (decide ((c.disconnect.disconnectMessage i).type = .disconnect))) =
          (pm.setClient i (disconnecting c.disconnect)).report [] := by
        simp [report, expects, ClientPortData.disconnectMessage]
      simp only [hensures, hsend]
      refine herase pm' ⟨hsound.1, ?_⟩ hget (by simp)
      exact (Adds.of_eq (by simp [report, setClient])).trans hsound.2

theorem sendToClientPort_skip
    (h : ∀ s c, pm.servers.get j = some s → pm.clients.get i = some c →
      isCompatibleClientServer s c = false) : sendToClientPort cfg m j pm i = pm := by
  unfold sendToClientPort
  split
  · next s c hs hc => simp [h s c hs hc]
  · rfl

theorem sendToClientPort_cases (cfg : Config) (m : CaproMessage) (j : Nat) (pm : PortManager)
    (i : Nat) :
    (∃ s c, pm.servers.get j = some s ∧ pm.clients.get i = some c ∧
      isCompatibleClientServer s c = true) ∨
    sendToClientPort cfg m j pm i = pm ∧
      ∀ s c, pm.servers.get j = some s → pm.clients.get i = some c →
        isCompatibleClientServer s c = false := by
  by_cases hex : ∃ s c, pm.servers.get j = some s ∧ pm.clients.get i = some c ∧
      isCompatibleClientServer s c = true
  · exact Or.inl hex
  · have hincomp : ∀ s c, pm.servers.get j = some s → pm.clients.get i = some c →
        isCompatibleClientServer s c = false := by
      intro s c hs hc
      exact Bool.eq_false_iff.mpr fun hcomp => hex ⟨s, c, hs, hc, hcomp⟩
    exact Or.inr ⟨sendToClientPort_skip hincomp, hincomp⟩

theorem sendToClientPort_silent (hs : pm.servers.get j = some s) (hc : pm.clients.get i = some c)
    (hcomp : isCompatibleClientServer s c = true) (c' : ClientPortData) (fs : List Failure)
    (hr : c.dispatchCaProMessageAndGetPossibleResponse i m = { port := c', failures := fs }) :
    sendToClientPort cfg m j pm i = (pm.setClient i c').report fs := by
  simp [sendToClientPort, hs, hc, hcomp, hr]

theorem sendToClientPort_connect (hs : pm.servers.get j = some s)
    (hc : pm.clients.get i = some c) (hcomp : isCompatibleClientServer s c = true)
    (hwait : c.connectionState = .waitForOffer) (hm : m.type = .offer)
    {r : Reaction ServerPortData} {a : CaproMessage}
    (hr : s.dispatchCaProMessageAndGetPossibleResponse cfg.maxClientsPerServer j
      (c.connectMessage i) = r) (ha : r.response = some a) {r' : Reaction ClientPortData}
    (hr' : (requesting c).dispatchCaProMessageAndGetPossibleResponse i a = r') :
    sendToClientPort cfg m j pm i =
      (((((pm.setClient i (requesting c)).report []).setServer j r.port).report
        r.failures).setClient i r'.port).report (r'.failures ++ expects r'.response.isNone) := by
  have hoffer : c.dispatchCaProMessageAndGetPossibleResponse i m =
      { port := requesting c, response := some (c.connectMessage i) } := by
    simp [ClientPortData.dispatchCaProMessageAndGetPossibleResponse, hwait, hm,
      ClientPortData.handleCaProMessageForStateWaitForOffer, requesting]
  have hexpects : expects (decide ((c.connectMessage i).type = .connect)) = [] := rfl
  simp [sendToClientPort, hs, hc, hcomp, hoffer, hr, ha, hr', hexpects]

theorem setServer_self (hs : pm.servers.get j = some s) :
    (pm.setServer j s).servers.get = pm.servers.get := by
  rw [servers_get_setServer hs]
  exact Function.update_eq_self_iff.mpr hs.symm

theorem setClient_self (hc : pm.clients.get i = some c) :
    (pm.setClient i c).clients.get = pm.clients.get := by
  rw [clients_get_setClient hc]
  exact Function.update_eq_self_iff.mpr hc.symm

/-- While server `j` offers its service: the clients in `pending` have not heard of it. -/
structure Offering (j : Nat) (pm₀ : PortManager) (pending : List Nat) (pm : PortManager) :
    Prop where
  sound : Sound Settled False pm₀ pm
  offered : ∃ s, pm.servers.get j = some s ∧ s.offered = true
  idle : ∀ i ∈ pending, ∀ s c, pm.servers.get j = some s → pm.clients.get i = some c →
    isCompatibleClientServer s c = true → c.connectionState ≠ .connected

theorem Offering.skip {pm₀ : PortManager} {rest : List Nat}
    (h : Offering j pm₀ (i :: rest) pm) : Offering j pm₀ rest pm :=
  ⟨h.sound, h.offered, fun k hk => h.idle k (List.mem_cons_of_mem i hk)⟩

theorem Offering.advance {pm₀ pm' : PortManager} {rest : List Nat}
    (h : Offering j pm₀ (i :: rest) pm) (hi : i ∉ rest) (hs : pm.servers.get j = some s)
    (s' : ServerPortData) (hs' : pm'.servers.get j = some s') (hoff : s'.offered = true)
    (hss : clientServer.SameProvider s s')
    (hclients : ∀ k, k ≠ i → pm'.clients.get k = pm.clients.get k)
    (hsound : Sound Settled False pm pm') : Offering j pm₀ rest pm' where
  sound := ⟨hsound.1, h.sound.2.trans hsound.2⟩
  offered := ⟨s', hs', hoff⟩
  idle := by
    intro k hk t c ht hc hcomp
    rw [hs'] at ht
    cases ht
    have hki : k ≠ i := by
      rintro rfl
      exact hi hk
    rw [hclients k hki] at hc
    exact h.idle k (List.mem_cons_of_mem i hk) s c hs hc ((hss.compatible c).symm.trans hcomp)

theorem Offering.step {pm₀ : PortManager} {rest : List Nat} (hm : m.type = .offer)
    (hi : i ∉ rest) (h : Offering j pm₀ (i :: rest) pm) :
    Offering j pm₀ rest (sendToClientPort cfg m j pm i) := by
  obtain ⟨s, hs, hoff⟩ := h.offered
  obtain ⟨s', c, hs', hc, hcomp⟩ | ⟨hskip, -⟩ := sendToClientPort_cases cfg m j pm i
  · rw [hs] at hs'
    cases hs'
    have hsides := h.sound.1
    have hidle := h.idle i List.mem_cons_self s c hs hc hcomp
    have hqueues : c.queues = [] := (hsides.sender hc).queues_of_idle hidle
    have hother : ∀ (c' : ClientPortData) k, k ≠ i →
        (pm.setClient i c').clients.get k = pm.clients.get k := by
      intro c' k hki
      rw [clients_get_setClient hc, Function.update_of_ne hki]
    cases hstate : c.connectionState with
    | notConnected =>
      rw [sendToClientPort_silent hs hc hcomp c [] (by
        simp [ClientPortData.dispatchCaProMessageAndGetPossibleResponse, hstate,
          ClientPortData.handleCaProMessageForStateNotConnected, hm])]
      refine h.advance hi hs s hs hoff (sameServer rfl rfl rfl) (hother c) ⟨?_, ?_⟩
      · change Sides Settled pm.servers.get (pm.setClient i c).clients.get
        rw [setClient_self hc]
        exact hsides
      · exact Adds.of_eq (by simp [report, setClient])
    | connectRequested => exact absurd hstate (hsides.resting hc).1
    | disconnectRequested => exact absurd hstate (hsides.resting hc).2
    | connected => exact absurd hstate hidle
    | waitForOffer =>
      have hnew := hsides.free_of_idle hc hidle j s hs
      obtain ⟨-, hreact⟩ | ⟨fs, hreact, hbenign⟩ := dispatch_connect (j := j)
        (m := c.connectMessage i) hnew rfl rfl cfg.maxClientsPerServer
      · rw [sendToClientPort_connect hs hc hcomp hstate hm hreact rfl (requesting_ack hqueues)]
        have hlink : Sides Settled
            (Function.update pm.servers.get j
              (some { s with queues := s.queues ++ [.client i] }))
            (Function.update pm.clients.get i
              (some { c with connectionState := .connected, queues := [.server j] })) :=
          hsides.link hs hc (sameServer rfl rfl rfl) (sameClient rfl rfl rfl) hcomp hidle hoff
            rfl rfl rfl
        rw [← clients_get_setClient_again (clients_get_setClient hc (requesting c)),
          ← servers_get_setServer hs] at hlink
        refine h.advance hi hs { s with queues := s.queues ++ [.client i] } ?_ hoff
          (sameServer rfl rfl rfl) ?_ ⟨hlink, ?_⟩
        · simp [report, setServer, setClient, hs]
        · intro k hki
          simp [report, setServer, setClient, Ne.symm hki]
        · exact Adds.of_eq (by simp [report, setServer, setClient, expects])
      · rw [sendToClientPort_connect hs hc hcomp hstate hm hreact rfl (requesting_nack rfl)]
        have hwait : Sides Settled pm.servers.get
            (Function.update pm.clients.get i
              (some { c with connectionState := .waitForOffer })) :=
          hsides.setIdle (hsides.free_of_idle hc hidle) (by simp [Resting]) (by simp) hqueues
        rw [← clients_get_setClient_again (clients_get_setClient hc (requesting c)),
          ← setServer_self hs] at hwait
        refine h.advance hi hs s ?_ hoff (sameServer rfl rfl rfl) ?_ ⟨hwait, ?_⟩
        · simp [report, setServer, setClient, hs]
        · intro k hki
          simp [report, setServer, setClient, Ne.symm hki]
        · intro f hf
          simp only [report, setClient, setServer, expects, List.append_nil, if_true,
            Option.isNone_none, List.mem_append] at hf
          exact hf.imp_right fun hf => Or.inl (hbenign f hf)
  · rw [hskip]
    exact h.skip

structure Stopping (j : Nat) (loud : Prop) (pm₀ : PortManager) (pending : List Nat)
    (pm : PortManager) : Prop where
  sound : Sound (fun k l => k = j ∧ l ∈ pending) loud pm₀ pm
  stopped : ∃ s, pm.servers.get j = some s ∧ s.offered = false
  quiet : ¬ loud → ∀ i ∈ pending, ∀ s c, pm.servers.get j = some s →
    pm.clients.get i = some c → isCompatibleClientServer s c = true →
    c.connectionState = .connected

def stranded (c : ClientPortData) : ClientPortData :=
  { c with connectionState := .waitForOffer, queues := [] }

theorem Stopping.advance {loud : Prop} {pm₀ pm' : PortManager} {rest : List Nat}
    (h : Stopping j loud pm₀ (i :: rest) pm) (hi : i ∉ rest)
    (hservers : pm'.servers.get = pm.servers.get)
    (hclients : ∀ k, k ≠ i → pm'.clients.get k = pm.clients.get k)
    (hsides : Sides (fun k l => k = j ∧ l ∈ i :: rest) pm'.servers.get pm'.clients.get)
    (hidle : ∀ s c, pm'.servers.get j = some s → pm'.clients.get i = some c →
      isCompatibleClientServer s c = true → c.connectionState ≠ .connected)
    (hadds : Adds pm pm' loud) : Stopping j loud pm₀ rest pm' where
  sound := by
    refine ⟨⟨?_, hsides.resting, hsides.sender⟩, h.sound.2.trans hadds⟩
    apply hsides.agreement.unmark
    rintro k l s c ⟨rfl, hl⟩ hs hc hconn hcomp
    refine ⟨rfl, ?_⟩
    obtain rfl | hl := List.mem_cons.mp hl
    · exact absurd (by simpa [clientServer] using hconn) (hidle s c hs hc hcomp)
    · exact hl
  stopped := by
    rw [hservers]
    exact h.stopped
  quiet := by
    intro hloud k hk s c hs hc hcomp
    have hki : k ≠ i := by
      rintro rfl
      exact hi hk
    rw [hservers] at hs
    rw [hclients k hki] at hc
    exact h.quiet hloud k (List.mem_cons_of_mem i hk) s c hs hc hcomp

theorem Stopping.step {loud : Prop} {pm₀ : PortManager} {rest : List Nat}
    (hm : m.type = .stopOffer) (hi : i ∉ rest) (h : Stopping j loud pm₀ (i :: rest) pm) :
    Stopping j loud pm₀ rest (sendToClientPort cfg m j pm i) := by
  obtain ⟨s, hs, hoff⟩ := h.stopped
  have hsides := h.sound.1
  obtain ⟨s', c, hs', hc, hcomp⟩ | ⟨hskip, hincomp⟩ := sendToClientPort_cases cfg m j pm i
  · rw [hs] at hs'
    cases hs'
    have hother : ∀ (c' : ClientPortData) k, k ≠ i →
        (pm.setClient i c').clients.get k = pm.clients.get k := by
      intro c' k hki
      rw [clients_get_setClient hc, Function.update_of_ne hki]
    -- a client that is not connected reports the message as a violation
    have hviolate : c.connectionState ≠ .connected →
        c.dispatchCaProMessageAndGetPossibleResponse i m =
          { port := c, failures := [.caproProtocolError .severe] } →
        Stopping j loud pm₀ rest (sendToClientPort cfg m j pm i) := by
      intro hidle hr
      rw [sendToClientPort_silent hs hc hcomp c _ hr]
      have hself : ((pm.setClient i c).report
          [.caproProtocolError .severe]).clients.get = pm.clients.get := setClient_self hc
      refine h.advance hi rfl (hother c) ?_ ?_ ?_
      · rw [hself]
        exact hsides
      · intro t c' ht hc' hcomp'
        rw [hself, hc] at hc'
        cases hc'
        exact hidle
      · refine Adds.trans (Adds.of_eq rfl) (Adds.report ?_ (pm.setClient i c))
        intro f hf
        rw [List.mem_singleton] at hf
        refine Or.inr ⟨⟨_, hf⟩, ?_⟩
        by_contra hloud
        exact hidle (h.quiet hloud i List.mem_cons_self s c hs hc hcomp)
    cases hstate : c.connectionState with
    | notConnected =>
      apply hviolate (by simp [hstate])
      simp [ClientPortData.dispatchCaProMessageAndGetPossibleResponse, hstate,
        ClientPortData.handleCaProMessageForStateNotConnected, hm,
        ClientPortData.handleCaProProtocolViolation]
    | connectRequested => exact absurd hstate (hsides.resting hc).1
    | disconnectRequested => exact absurd hstate (hsides.resting hc).2
    | waitForOffer =>
      apply hviolate (by simp [hstate])
      simp [ClientPortData.dispatchCaProMessageAndGetPossibleResponse, hstate,
        ClientPortData.handleCaProMessageForStateWaitForOffer, hm,
        ClientPortData.handleCaProProtocolViolation]
    | connected =>
      rw [sendToClientPort_silent hs hc hcomp (stranded c) [] (by
        simp [ClientPortData.dispatchCaProMessageAndGetPossibleResponse, hstate,
          ClientPortData.handleCaProMessageForStateConnected, hm, stranded])]
      have hfree : ∀ k t, pm.servers.get k = some t → .client i ∉ t.queues := by
        intro k t hk hmem
        obtain ⟨-, l, u, hname, hu, hc', -⟩ := hsides.agreement.held hk hmem
        cases hname
        rw [hc] at hu
        cases hu
        obtain rfl := hsides.agreement.provider_unique hk hs hc' hcomp
        rw [hs] at hk
        cases hk
        have hnil : s.queues = [] := hsides.agreement.queues_of_not_offered hs hoff
        simp [hnil] at hmem
      have hclients : ((pm.setClient i (stranded c)).report []).clients.get =
          Function.update pm.clients.get i (some (stranded c)) := clients_get_setClient hc _
      refine h.advance hi rfl (hother _) ?_ ?_
        (Adds.of_eq (by simp [report, PortManager.setClient]))
      · rw [hclients]
        exact hsides.setIdle hfree (by simp [Resting, stranded]) (by simp [stranded]) rfl
      · intro t c' _ hc' _
        rw [hclients, Function.update_self] at hc'
        cases hc'
        simp [stranded]
  · rw [hskip]
    refine h.advance hi rfl (fun _ _ => rfl) hsides ?_ (Adds.refl pm)
    intro t c ht hc hcomp
    simp [hincomp t c ht hc] at hcomp

theorem broadcasts_sendToClientPort (m : CaproMessage) (j : Nat) (pm : PortManager) (i : Nat) :
    (sendToClientPort cfg m j pm i).broadcasts = pm.broadcasts := by
  unfold sendToClientPort
  split
  · split
    · simp only
      split
      · rfl
      · split <;> rfl
    · rfl
  · rfl

theorem broadcasts_forwardServerMessage (cfg : Config) (m : CaproMessage)
    (hs : pm.servers.get j = some s) :
    (forwardServerMessage cfg m j pm).broadcasts = pm.broadcasts ++
      [.toClients m.type ((matchingClients s pm).map (·.connectionState))] := by
  unfold forwardServerMessage
  rw [(SameCore.sendToAllMatchingInterfacePorts cfg m _).broadcasts]
  unfold sendToAllMatchingClientPorts
  rw [hs]
  exact Lib.foldl_frame (fun pm : PortManager => pm.broadcasts)
    (broadcasts_sendToClientPort m j) _ _

theorem mem_matchingClients (hc : pm.clients.get i = some c)
    (hcomp : isCompatibleClientServer s c = true) : c ∈ matchingClients s pm := by
  unfold matchingClients
  rw [List.mem_filter, List.mem_filterMap]
  exact ⟨⟨i, by simp [hc], hc⟩, hcomp⟩

theorem offer_sound (cfg : Config) (pm : PortManager)
    (h : Sides Settled pm.servers.get pm.clients.get)
    (hs : pm.servers.get j = some s) (hoff : s.offered = true) (hm : m.type = .offer)
    (hidle : ∀ i c, pm.clients.get i = some c → isCompatibleClientServer s c = true →
      c.connectionState ≠ .connected) :
    Sound Settled False pm (forwardServerMessage cfg m j pm) := by
  have hloop : Offering j pm [] (sendToAllMatchingClientPorts cfg m j pm) := by
    unfold sendToAllMatchingClientPorts
    rw [hs]
    refine Lib.foldl_pending (I := Offering j pm) _ _ pm.clients.content_nodup
      (fun _ _ _ ha hI => hI.step hm ha) ?_
    refine ⟨⟨h, Adds.of_eq rfl⟩, ⟨s, hs, hoff⟩, ?_⟩
    intro i _ t c ht hc hcomp
    have ht' : pm.servers.get j = some t := ht
    rw [hs] at ht'
    cases ht'
    exact hidle i c hc hcomp
  have hcore := SameCore.sendToAllMatchingInterfacePorts cfg m
    (sendToAllMatchingClientPorts cfg m j pm)
  exact hloop.sound.of_eq hcore.servers hcore.clients hcore.adds

theorem stop_sound (cfg : Config) (pm : PortManager)
    (h : Sides (fun k l => k = j ∧ l ∈ pm.clients.content) pm.servers.get pm.clients.get)
    (hs : pm.servers.get j = some s) (hoff : s.offered = false) (hm : m.type = .stopOffer) :
    Sound Settled (Loud cfg (forwardServerMessage cfg m j pm)) pm
        (forwardServerMessage cfg m j pm) ∧
      ∃ s, (forwardServerMessage cfg m j pm).servers.get j = some s ∧ s.offered = false := by
  have hbroadcasts := broadcasts_forwardServerMessage cfg m hs
  generalize hloud : Loud cfg (forwardServerMessage cfg m j pm) = loud
  have hloop : Stopping j loud pm [] (sendToAllMatchingClientPorts cfg m j pm) := by
    unfold sendToAllMatchingClientPorts
    rw [hs]
    refine Lib.foldl_pending (I := Stopping j loud pm) _ _ pm.clients.content_nodup
      (fun _ _ _ ha hI => hI.step hm ha) ?_
    refine ⟨⟨h, Adds.of_eq rfl⟩, ⟨s, hs, hoff⟩, ?_⟩
    intro hquiet i _ t c ht hc hcomp
    have ht' : pm.servers.get j = some t := ht
    rw [hs] at ht'
    cases ht'
    rw [← hloud] at hquiet
    by_contra hidle
    apply hquiet
    refine ⟨_, by rw [hbroadcasts]; exact List.mem_append_right _ List.mem_cons_self, ?_⟩
    intro hall
    exact hidle (hall hm _ (List.mem_map_of_mem (mem_matchingClients hc hcomp)))
  have hcore := SameCore.sendToAllMatchingInterfacePorts cfg m
    (sendToAllMatchingClientPorts cfg m j pm)
  refine ⟨Sound.of_eq ⟨⟨?_, hloop.sound.1.resting, hloop.sound.1.sender⟩, hloop.sound.2⟩
    hcore.servers hcore.clients hcore.adds, ?_⟩
  · apply hloop.sound.1.agreement.mono
    rintro k l ⟨-, hl⟩
    cases hl
  · obtain ⟨s', hs', hoff'⟩ := hloop.stopped
    refine ⟨s', ?_, hoff'⟩
    unfold forwardServerMessage
    rw [hcore.servers]
    exact hs'

theorem Sides.stopOffer (h : Sides Settled pm.servers.get pm.clients.get)
    (hs : pm.servers.get j = some s) {s' : ServerPortData}
    (hss : clientServer.SameProvider s s') (hq : s'.queues = []) :
    Sides (fun k l => k = j ∧ l ∈ pm.clients.content)
      (Function.update pm.servers.get j (some s')) pm.clients.get := by
  apply h.setServer hs hss
  apply h.agreement.shrink hs hss
  · change s'.queues.Sublist s.queues
    simp [hq]
  · intro hne
    exact absurd hq hne
  · intro l hmem _
    obtain ⟨-, k, c, hname, hc, -⟩ := h.agreement.held hs hmem
    cases hname
    exact ⟨rfl, by simp [hc]⟩
  · intro k l hst
    exact hst.elim

theorem discoverServer_sound (h : Sides Settled pm.servers.get pm.clients.get) (j : Nat) :
    Sound Settled (Loud cfg (doDiscoveryForServerPort cfg j pm)) pm
      (doDiscoveryForServerPort cfg j pm) := by
  unfold doDiscoveryForServerPort
  split
  · exact ⟨h, Adds.refl pm⟩
  · next s hs =>
    have hset := fun s' => servers_get_setServer hs s'
    obtain htry | ⟨hoff, m, htry, hm, -⟩ | ⟨hoff, m, htry, hm, -⟩ :=
      s.tryGet_cases cfg.maxClientsPerServer j
    · rw [htry]
      refine ⟨?_, Adds.of_eq (by simp [report, setServer])⟩
      have hself := setServer_self hs
      rw [← hself] at h
      exact h
    · rw [htry]
      simp only [hm]
      have hports := SamePorts.addToServiceRegistry cfg .serverCount m.serviceDescription
        ((pm.setServer j { s with offered := true }).report [])
      have hsides : Sides Settled (Function.update pm.servers.get j
          (some { s with offered := true })) pm.clients.get :=
        h.setServer hs (sameServer rfl rfl rfl)
          (h.agreement.setProvider hs (sameServer rfl rfl rfl) rfl fun _ => rfl)
      rw [← hset] at hsides
      have hsides' : Sides Settled (addServerToServiceRegistry cfg m.serviceDescription
          ((pm.setServer j { s with offered := true }).report [])).servers.get
          (addServerToServiceRegistry cfg m.serviceDescription
            ((pm.setServer j { s with offered := true }).report [])).clients.get := by
        unfold addServerToServiceRegistry
        rw [hports.servers, hports.clients]
        exact hsides
      have hget : (addServerToServiceRegistry cfg m.serviceDescription
          ((pm.setServer j { s with offered := true }).report [])).servers.get j =
          some { s with offered := true } := by
        unfold addServerToServiceRegistry
        rw [hports.servers]
        simp [report, setServer, hs]
      have hidle : ∀ i c, (addServerToServiceRegistry cfg m.serviceDescription
          ((pm.setServer j { s with offered := true }).report [])).clients.get i = some c →
          isCompatibleClientServer { s with offered := true } c = true →
          c.connectionState ≠ .connected := by
        unfold addServerToServiceRegistry
        rw [hports.clients]
        intro i c hc hcomp hconn
        have := (h.agreement.connected_iff hs hc hcomp).mp (by simp [clientServer, hconn])
        simp [clientServer, hoff] at this
      have hsound := offer_sound cfg _ hsides' hget rfl hm hidle
      refine ⟨hsound.1, ?_⟩
      refine Adds.trans ?_ (hsound.2.mono False.elim)
      exact Adds.trans (Adds.of_eq (by simp [report, setServer])) (hports.adds _)
    · rw [htry]
      simp only [hm]
      have hsides : Sides (fun k l => k = j ∧ l ∈ pm.clients.content)
          (Function.update pm.servers.get j (some { s with offered := false, queues := [] }))
          pm.clients.get :=
        h.stopOffer hs (sameServer rfl rfl rfl) rfl
      rw [← hset] at hsides
      have hget : (removeServerFromServiceRegistry m.serviceDescription
          ((pm.setServer j { s with offered := false, queues := [] }).report [])).servers.get j =
          some { s with offered := false, queues := [] } := by
        simp [removeServerFromServiceRegistry, report, setServer, hs]
      have hsound := (stop_sound cfg _ hsides hget rfl hm).1
      refine ⟨hsound.1, ?_⟩
      refine Adds.trans ?_ hsound.2
      exact Adds.of_eq (by simp [removeServerFromServiceRegistry, report, setServer])

theorem destroyServer_sound (h : Sides Settled pm.servers.get pm.clients.get) (j : Nat) :
    Sound Settled (Loud cfg (destroyServerPort cfg j pm)) pm (destroyServerPort cfg j pm) := by
  unfold destroyServerPort
  split
  · exact ⟨h, Adds.refl pm⟩
  · next s hs =>
    have hset := fun s' => servers_get_setServer hs s'
    have herase : ∀ (pm' : PortManager) {s'}, Sound Settled (Loud cfg pm') pm pm' →
        pm'.servers.get j = some s' → s'.offered = false →
        Sound Settled (Loud cfg { pm' with servers := pm'.servers.erase j }) pm
          { pm' with servers := pm'.servers.erase j } := by
      intro pm' s' hsound hs' hoff
      refine ⟨?_, hsound.2⟩
      have := hsound.1.eraseServer hs' hoff
      rw [← pm'.servers.get_erase_eq] at this
      exact this
    obtain ⟨hoff, htry⟩ | ⟨-, m, htry, hm, htype, -⟩ :=
      s.tryGet_stopOffer cfg.maxClientsPerServer j
    · rw [htry]
      have hget : ((pm.setServer j s.stopOffer).report []).servers.get j = some s.stopOffer := by
        simp [report, setServer, hs]
      refine herase ((pm.setServer j s.stopOffer).report []) ⟨?_, ?_⟩ hget hoff
      · have hsides : Sides Settled (Function.update pm.servers.get j (some s.stopOffer))
            pm.clients.get :=
          h.setServer hs (sameServer rfl rfl rfl)
            (h.agreement.setProvider hs (sameServer rfl rfl rfl) rfl fun ho => ho)
        rw [← hset] at hsides
        exact hsides
      · exact Adds.of_eq (by simp [report, setServer])
    · rw [htry]
      have hensures : expects (decide (m.type = .stopOffer)) ++
          expects (decide (m.serviceType = .server)) = [] := by
        simp [expects, hm, htype]
      simp only [hensures]
      have hsides : Sides (fun k l => k = j ∧ l ∈ pm.clients.content)
          (Function.update pm.servers.get j
            (some { s.stopOffer with offered := false, queues := [] })) pm.clients.get :=
        h.stopOffer hs (sameServer rfl rfl rfl) rfl
      rw [← hset] at hsides
      have hget : (removeServerFromServiceRegistry m.serviceDescription
          (((pm.setServer j { s.stopOffer with offered := false, queues := [] }).report
            []).report [])).servers.get j =
          some { s.stopOffer with offered := false, queues := [] } := by
        simp [removeServerFromServiceRegistry, report, setServer, hs]
      obtain ⟨hsound, s', hs', hoff'⟩ := stop_sound cfg _ hsides hget rfl hm
      refine herase _ ⟨hsound.1, ?_⟩ hs' hoff'
      refine Adds.trans ?_ hsound.2
      exact Adds.of_eq (by simp [removeServerFromServiceRegistry, report, setServer])

structure SameClientServer (pm pm' : PortManager) : Prop where
  clients : pm'.clients = pm.clients
  servers : pm'.servers = pm.servers
  adds : Adds pm pm' True

namespace SameClientServer

variable {pm' pm'' : PortManager}

theorem refl (pm : PortManager) : SameClientServer pm pm := ⟨rfl, rfl, Adds.refl pm⟩

theorem trans (h : SameClientServer pm pm') (h' : SameClientServer pm' pm'') :
    SameClientServer pm pm'' :=
  ⟨h'.clients.trans h.clients, h'.servers.trans h.servers, h.adds.trans h'.adds⟩

theorem of_core (h : SameCore pm pm') : SameClientServer pm pm' :=
  ⟨h.clients, h.servers, h.adds⟩

theorem of_ports (h : SamePorts pm pm') : SameClientServer pm pm' :=
  ⟨h.clients, h.servers, h.adds _⟩

theorem of_failures (hc : pm'.clients = pm.clients) (hs : pm'.servers = pm.servers)
    {fs : List Failure} (hf : pm'.failures = pm.failures ++ fs) (hfs : .contract ∉ fs) :
    SameClientServer pm pm' := by
  refine ⟨hc, hs, ?_⟩
  intro f h
  rw [hf, List.mem_append] at h
  refine h.imp_right fun h => ?_
  cases f with
  | contract => exact absurd h hfs
  | error e level =>
    by_cases he : e = .popoCaproProtocolError
    · exact Or.inr ⟨⟨level, by rw [he]; rfl⟩, trivial⟩
    · exact Or.inl (by cases e <;> first | exact trivial | exact absurd rfl he)

theorem sendToPublisherPort {m : CaproMessage} (hq : m.chunkQueueData.isSome = true) (j : Nat)
    (acc : PortManager × Bool) (i : Nat) :
    SameClientServer acc.1 (sendToPublisherPort cfg m j acc i).1 := by
  obtain ⟨pm, b⟩ := acc
  unfold PortManager.sendToPublisherPort
  simp only
  split
  · next p s _ _ =>
    split
    · obtain ⟨a, ha, htype⟩ := p.dispatch_response cfg.maxSubscribersPerPublisher m
      have hnone := s.dispatch_response_of_ne cfg.communicationPolicy j (m := a)
        (by obtain h | h := htype <;> simp [h])
      simp only [ha, hnone]
      refine of_failures rfl rfl (List.append_assoc _ _ _) ?_
      simp [PublisherPortData.dispatch_no_contract hq, SubscriberPortData.dispatch_no_contract,
        expects]
    · exact refl pm
  · exact refl pm

theorem sendToAllMatchingPublisherPorts (cfg : Config) {m : CaproMessage}
    (hq : m.chunkQueueData.isSome = true) (j : Nat) (pm : PortManager) :
    SameClientServer pm (sendToAllMatchingPublisherPorts cfg m j pm).1 := by
  unfold PortManager.sendToAllMatchingPublisherPorts
  exact Lib.foldl_invariant (I := fun acc : PortManager × Bool => SameClientServer pm acc.1) _ _
    (fun acc i _ h => h.trans (sendToPublisherPort hq j acc i)) (refl pm)

theorem sendToSubscriberPort (m : CaproMessage) (i : Nat) (pm : PortManager) (j : Nat) :
    SameClientServer pm (sendToSubscriberPort cfg m i pm j) := by
  unfold PortManager.sendToSubscriberPort
  split
  · next p s _ _ =>
    split
    · simp only
      split
      · exact of_failures rfl rfl rfl SubscriberPortData.dispatch_no_contract
      · next a ha =>
        obtain ⟨hm, rfl⟩ := SubscriberPortData.dispatch_response ha
        obtain ⟨b, hb, htype⟩ :=
          p.dispatch_response cfg.maxSubscribersPerPublisher (s.subMessage j)
        have hne : b.type ≠ .offer := by obtain h | h := htype <;> simp [h]
        simp only [hb, SubscriberPortData.dispatch_response_of_ne _ _ _ hne]
        refine of_failures rfl rfl
          ((List.append_assoc _ _ _).trans (List.append_assoc _ _ _)) ?_
        simp [SubscriberPortData.dispatch_no_contract, expects, hm,
          PublisherPortData.dispatch_no_contract (m := s.subMessage j) rfl]
    · exact refl pm
  · exact refl pm

theorem forwardPublisherMessage (m : CaproMessage) (i : Nat) (pm : PortManager) :
    SameClientServer pm (forwardPublisherMessage cfg m i pm) := by
  refine trans ?_ (of_core (SameCore.sendToAllMatchingInterfacePorts cfg m _))
  unfold sendToAllMatchingSubscriberPorts
  split
  · exact refl pm
  · exact Lib.foldl_invariant (I := SameClientServer pm) _ _
      (fun pm' j _ h => h.trans (sendToSubscriberPort m i pm' j)) ⟨rfl, rfl, Adds.of_eq rfl⟩

theorem discoverPublisher (i : Nat) (pm : PortManager) :
    SameClientServer pm (doDiscoveryForPublisherPort cfg i pm) := by
  unfold doDiscoveryForPublisherPort
  split
  · exact refl pm
  · next p _ =>
    obtain htry | ⟨-, m, htry, hm, -⟩ | ⟨-, m, htry, hm, -⟩ := p.tryGet_cases
    · rw [htry]
      exact ⟨rfl, rfl, Adds.of_eq (by simp [report, setPublisher])⟩
    · rw [htry]
      simp only [hm]
      refine trans ?_ (forwardPublisherMessage m i _)
      refine trans ?_ (of_ports (SamePorts.addToServiceRegistry cfg _ _ _))
      exact ⟨rfl, rfl, Adds.of_eq (by simp [report, setPublisher])⟩
    · rw [htry]
      simp only [hm]
      refine trans ?_ (forwardPublisherMessage m i _)
      exact ⟨rfl, rfl, Adds.of_eq
        (by simp [removePublisherFromServiceRegistry, report, setPublisher])⟩

theorem destroyPublisher (i : Nat) (pm : PortManager) :
    SameClientServer pm (destroyPublisherPort cfg i pm) := by
  unfold destroyPublisherPort
  split
  · exact refl pm
  · next p _ =>
    obtain ⟨-, htry⟩ | ⟨-, m, htry, hm, -⟩ := p.tryGet_stopOffer
    · rw [htry]
      exact ⟨rfl, rfl, Adds.of_eq (by simp [report, setPublisher])⟩
    · rw [htry]
      have hsame : SameClientServer pm (PortManager.forwardPublisherMessage cfg m i
          (removePublisherFromServiceRegistry m.serviceDescription
            (((pm.setPublisher i { p.stopOffer with offered := false, queues := [] }).report
              []).report (expects (decide (m.type = .stopOffer)))))) := by
        refine trans ?_ (forwardPublisherMessage m i _)
        exact ⟨rfl, rfl, Adds.of_eq
          (by simp [removePublisherFromServiceRegistry, report, setPublisher, expects, hm])⟩
      exact ⟨hsame.clients, hsame.servers, hsame.adds⟩

theorem nackSubscriber (j : Nat) (pm : PortManager) :
    SameClientServer pm (nackSubscriber cfg j pm) := by
  unfold PortManager.nackSubscriber
  split
  · exact refl pm
  · next s _ =>
    have hnone := s.dispatch_response_of_ne cfg.communicationPolicy j
      (m := { type := .nack, serviceDescription := s.serviceDescription }) (by simp)
    simp only [hnone]
    refine of_failures rfl rfl rfl ?_
    simp [SubscriberPortData.dispatch_no_contract, expects]

theorem discoverSubscriber (j : Nat) (pm : PortManager) :
    SameClientServer pm (doDiscoveryForSubscriberPort cfg j pm) := by
  unfold doDiscoveryForSubscriberPort
  split
  · exact refl pm
  · next s _ =>
    have hset : SameClientServer pm ((pm.setSubscriber j
        (s.tryGetCaProMessage cfg.communicationPolicy j).port).report
        (s.tryGetCaProMessage cfg.communicationPolicy j).failures) :=
      ⟨rfl, rfl, Adds.of_eq (by simp [report, setSubscriber, SubscriberPortData.tryGet_failures])⟩
    simp only
    split
    · exact hset
    · next m hm =>
      have hq : m.chunkQueueData.isSome = true := by
        obtain ⟨rfl, -⟩ | ⟨rfl, -⟩ := SubscriberPortData.tryGet_response hm <;> rfl
      split
      · have hsend := hset.trans (sendToAllMatchingPublisherPorts cfg hq j _)
        split
        · exact hsend
        · exact hsend.trans (nackSubscriber j _)
      · exact hset.trans (of_core (SameCore.report (by simp [Benign]) _))

theorem destroySubscriber (j : Nat) (pm : PortManager) :
    SameClientServer pm (destroySubscriberPort cfg j pm) := by
  unfold destroySubscriberPort
  split
  · exact refl pm
  · next s _ =>
    have hset : SameClientServer pm ((pm.setSubscriber j
        (s.unsubscribe.tryGetCaProMessage cfg.communicationPolicy j).port).report
        (s.unsubscribe.tryGetCaProMessage cfg.communicationPolicy j).failures) :=
      ⟨rfl, rfl, Adds.of_eq (by simp [report, setSubscriber, SubscriberPortData.tryGet_failures])⟩
    simp only
    split
    · exact ⟨hset.clients, hset.servers, hset.adds⟩
    · next m hm =>
      obtain ⟨rfl, hreq⟩ | ⟨rfl, -⟩ := SubscriberPortData.tryGet_response hm
      · simp [SubscriberPortData.unsubscribe] at hreq
      · have hexpects : expects (decide ((s.unsubscribe.unsubMessage j).type = .unsub)) = [] := rfl
        have hsend := (hset.trans (of_core (SameCore.report
            (show ∀ f ∈ [], Benign f by simp) _))).trans
          (sendToAllMatchingPublisherPorts cfg (m := s.unsubscribe.unsubMessage j) rfl j _)
        rw [hexpects]
        exact ⟨hsend.clients, hsend.servers, hsend.adds⟩

end SameClientServer

structure ClientServerInv (pm : PortManager) : Prop where
  sides : Sides Settled pm.servers.get pm.clients.get
  contracts : .contract ∉ pm.failures

namespace ClientServerInv

theorem of_sound {loud : Prop} {pm' : PortManager} (h : ClientServerInv pm)
    (hsound : Sound Settled loud pm pm') : ClientServerInv pm' :=
  ⟨hsound.1, hsound.2.contract h.contracts⟩

theorem of_same {pm' : PortManager} (h : ClientServerInv pm)
    (hsame : SameClientServer pm pm') : ClientServerInv pm' where
  sides := by
    rw [hsame.clients, hsame.servers]
    exact h.sides
  contracts := hsame.adds.contract h.contracts

theorem empty : ClientServerInv {} where
  sides := by
    have hnone : ∀ {α : Type}, (({} : FixedPositionContainer α)).get = fun _ => none := by
      intro α
      funext i
      simp
    rw [hnone, hnone]
    exact ⟨Lib.Rendezvous.Agreement.empty, by simp, by simp⟩
  contracts := by simp

theorem keeps (cfg : Config) : Keeps cfg ClientServerInv where
  core hcore h := h.of_same (SameClientServer.of_core hcore)
  discoverPublisher i _ h := h.of_same (SameClientServer.discoverPublisher i _)
  destroyPublisher i _ h := h.of_same (SameClientServer.destroyPublisher i _)
  discoverSubscriber j _ h := h.of_same (SameClientServer.discoverSubscriber j _)
  destroySubscriber j _ h := h.of_same (SameClientServer.destroySubscriber j _)
  discoverServer j _ h := h.of_sound (discoverServer_sound h.sides j)
  destroyServer j _ h := h.of_sound (destroyServer_sound h.sides j)
  discoverClient i _ h := h.of_sound (discoverClient_sound h.sides i)
  destroyClient i _ h := h.of_sound (destroyClient_sound h.sides i)
  flagPublisher _ _ _ _ h := ⟨h.sides, h.contracts⟩
  flagServer := by
    intro j pm f hf h
    refine ⟨?_, h.contracts⟩
    cases hs : pm.servers.get j with
    | none =>
      simp only
      rw [pm.servers.get_modify_none f hs]
      exact h.sides
    | some s =>
      simp only
      rw [pm.servers.get_modify_eq f hs]
      obtain ⟨a, b, hfs⟩ := hf s
      rw [hfs]
      exact h.sides.setServer hs (sameServer rfl rfl rfl)
        (h.sides.agreement.setProvider hs (sameServer rfl rfl rfl) rfl fun ho => ho)
  flagSubscriber _ _ _ _ h := ⟨h.sides, h.contracts⟩
  flagClient := by
    intro i a b pm h
    refine ⟨?_, h.contracts⟩
    cases hc : pm.clients.get i with
    | none =>
      simp only [writeClient]
      rw [pm.clients.get_modify_none _ hc]
      exact h.sides
    | some c =>
      simp only [writeClient]
      rw [pm.clients.get_modify_eq _ hc]
      exact h.sides.setClient hc (sameClient rfl rfl rfl) rfl rfl

theorem insertClient {service : ServiceDescription} {options : ClientOptions} {name : String}
    (h : ClientServerInv pm) : ClientServerInv { pm with clients :=
      (pm.clients.insert (ClientPortData.create service name options)).1 } := by
  refine ⟨?_, h.contracts⟩
  have hnone := pm.clients.get_insert_slot (ClientPortData.create service name options)
  simp only
  rw [pm.clients.get_insert_eq]
  exact h.sides.setIdle (fun _ _ hs => h.sides.agreement.not_held_of_absent hnone hs)
    (by simp [Resting, ClientPortData.create]) (by simp [ClientPortData.create]) rfl

theorem insertServer {service : ServiceDescription} {options : ServerOptions} {name : String}
    (h : ClientServerInv pm)
    (hfree : ∀ k s, pm.servers.get k = some s → ¬ service.Same s.serviceDescription) :
    ClientServerInv { pm with servers :=
      (pm.servers.insert (ServerPortData.create service name options)).1 } := by
  refine ⟨?_, h.contracts⟩
  simp only
  rw [pm.servers.get_insert_eq]
  refine h.sides.insertServer (pm.servers.get_insert_slot _) ?_ rfl
  intro k t hk hkey
  exact hfree k t hk (ServiceDescription.same_iff.mpr hkey.symm)

theorem apply (h : ClientServerInv pm) (op : Op) : ClientServerInv (apply cfg pm op) := by
  apply (keeps cfg).apply h op
  · rintro service options name -
    exact (keeps cfg).acquirePublisher h fun hI _ _ _ => ⟨hI.sides, hI.contracts⟩
  · rintro service options name -
    unfold acquireSubscriberPortData
    split
    · exact (keeps cfg).discoverSubscriber _ ⟨h.sides, h.contracts⟩
    · exact (keeps cfg).core (SameCore.report (by simp [Benign]) _) h
  · rintro service options name -
    exact (keeps cfg).acquireClient h h.insertClient
  · rintro service options name -
    exact (keeps cfg).acquireServer h fun hI _ hfree => hI.insertServer hfree

theorem run (ops : List Op) : ClientServerInv (run cfg ops) :=
  run_invariant ops empty fun _ op _ h => h.apply op

end ClientServerInv

/-- After every operation of every run: a live client and a live server that are compatible
agree on whether they are connected, no sender holds a queue it should not hold, no client
rests in a transient state, and no contract was violated on the way. -/
theorem client_server_agreement (cfg : Config) (ops : List Op) :
    (∀ i j c s, (run cfg ops).clients.get i = some c → (run cfg ops).servers.get j = some s →
      isCompatibleClientServer s c = true →
      (c.connectionState = .connected ↔ s.offered = true ∧ .client i ∈ s.queues) ∧
      (c.connectionState = .connected ↔ .server j ∈ c.queues)) ∧
    (∀ i c q, (run cfg ops).clients.get i = some c → q ∈ c.queues →
      ∃ j s, q = .server j ∧ (run cfg ops).servers.get j = some s ∧
        isCompatibleClientServer s c = true) ∧
    (∀ j s q, (run cfg ops).servers.get j = some s → q ∈ s.queues →
      ∃ i c, q = .client i ∧ (run cfg ops).clients.get i = some c ∧
        isCompatibleClientServer s c = true) ∧
    (∀ i c, (run cfg ops).clients.get i = some c →
      c.connectionState ≠ .connectRequested ∧ c.connectionState ≠ .disconnectRequested) ∧
    .contract ∉ (run cfg ops).failures := by
  have h : ClientServerInv (run cfg ops) := ClientServerInv.run ops
  refine ⟨?_, ?_, ?_, fun i c hc => h.sides.resting hc, h.contracts⟩
  · intro i j c s hc hs hcomp
    have hiff := h.sides.agreement.connected_iff hs hc hcomp
    refine ⟨by simpa [clientServer] using hiff, ?_⟩
    have hsend := h.sides.sender hc
    unfold SenderOk at hsend
    split at hsend
    · next hconn =>
      obtain ⟨k, t, hk, hcomp', hq⟩ := hsend
      obtain rfl := h.sides.agreement.provider_unique hk hs hcomp' hcomp
      simp [hconn, hq]
    · next hconn => simp [hconn, hsend]
  · intro i c q hc hq
    have hsend := h.sides.sender hc
    unfold SenderOk at hsend
    split at hsend
    · obtain ⟨j, s, hs, hcomp, hqs⟩ := hsend
      rw [hqs, List.mem_singleton] at hq
      exact ⟨j, s, hq, hs, hcomp⟩
    · simp [hsend] at hq
  · intro j s q hs hq
    obtain ⟨-, i, c, hname, hc, hcomp, -⟩ := h.sides.agreement.held hs hq
    exact ⟨i, c, hname, hc, hcomp⟩

end Iceoryx.Roudi.PortManager
