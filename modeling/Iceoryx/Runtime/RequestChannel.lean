import Mathlib.Data.Fintype.Basic
import Iceoryx.Lib.Run
import Iceoryx.Runtime.Requests

/-! The threads of one application that send requests to RouDi and wait for the
reply.  Both channels are FIFO; a reply does not say which request it answers. -/

universe u

namespace Iceoryx.Runtime

/-- The serial number only tells the messages apart: no step reads it. -/
structure Message where
  serial : Nat
  cmd : IpcMessageType
  deriving DecidableEq, Repr

/-- A reply and the request that RouDi was handling when it sent it. -/
structure Reply where
  request : Message
  content : IpcMessageType
  deriving DecidableEq, Repr

inductive Caller (T : Type u)
  | user (t : T)
  | keepAlive
  deriving DecidableEq

/-- Where a thread is; `ready` is right before the request is sent. -/
inductive Pc
  | idle | exchanging | ready | waiting (sent : Message) | received
  deriving DecidableEq, Repr

def Pc.isWaiting : Pc → Bool
  | .waiting _ => true
  | _ => false

structure Channels (T : Type u) where
  mutex : Option T := none
  shutdownRequested : Bool := false
  pcs : Caller T → Pc := fun _ => .idle
  toRoudi : List Message := []
  toApp : List Reply := []
  serial : Nat := 0
  receipts : List (Caller T × Message × Reply) := []

inductive ChannelStep (T : Type u)
  | lock (t : T)
  | unlock (t : T)
  | requestShutdown
  | sendKeepalive
  | exchange
  | send (c : Caller T) (cmd : IpcMessageType)
  | receive (c : Caller T)
  | processMessage (content : IpcMessageType)

/-- `getMiddleware*` and `createNode` in the user threads,
`sendKeepAliveAndHandleShutdownPreparation` in the keep-alive thread. -/
def Caller.requests {T : Type u} : Caller T → List IpcMessageType
  | .user _ => [.createPublisher, .createSubscriber, .createClient, .createServer,
    .createInterface, .createConditionVariable, .createNode]
  | .keepAlive => [.prepareAppTermination]

def Caller.afterReceive {T : Type u} : Caller T → Pc
  | .user _ => .received
  | .keepAlive => .idle

namespace Channels

variable {T : Type u} [DecidableEq T]

def goto (c : Caller T) (pc : Pc) (s : Channels T) : Channels T :=
  { s with pcs := Function.update s.pcs c pc }

def post (cmd : IpcMessageType) (s : Channels T) : Channels T :=
  { s with
    toRoudi := s.toRoudi ++ [{ serial := s.serial, cmd := cmd }]
    serial := s.serial + 1 }

def step (s : Channels T) : ChannelStep T → Option (Channels T)
  | .lock t =>
    if s.pcs (.user t) = .idle ∧ s.mutex = none then
      some { s.goto (.user t) .ready with mutex := some t }
    else none
  | .unlock t =>
    if s.pcs (.user t) = .received then some { s.goto (.user t) .idle with mutex := none }
    else none
  | .requestShutdown => some { s with shutdownRequested := true }
  | .sendKeepalive =>
    if s.pcs .keepAlive = .idle then some ((s.goto .keepAlive .exchanging).post .keepalive)
    else none
  | .exchange =>
    if s.pcs .keepAlive = .exchanging then
      some { s.goto .keepAlive (if s.shutdownRequested then .ready else .idle) with
        shutdownRequested := false }
    else none
  | .send c cmd =>
    if s.pcs c = .ready ∧ cmd ∈ c.requests then
      some ((s.goto c (.waiting { serial := s.serial, cmd := cmd })).post cmd)
    else none
  | .receive c =>
    match s.pcs c, s.toApp with
    | .waiting sent, reply :: rest =>
      some { s.goto c c.afterReceive with
        toApp := rest
        receipts := s.receipts ++ [(c, sent, reply)] }
    | _, _ => none
  | .processMessage content =>
    match s.toRoudi with
    | [] => none
    | m :: rest =>
      if m.cmd = .keepalive then some { s with toRoudi := rest }
      else some { s with toRoudi := rest, toApp := s.toApp ++ [{ request := m, content }] }

/-- No request of the keep-alive thread is under way together with one of a user
thread. -/
def Apart (s : Channels T) : ChannelStep T → Prop
  | .send .keepAlive _ => ∀ t, (s.pcs (.user t)).isWaiting = false
  | .send (.user _) _ => (s.pcs .keepAlive).isWaiting = false
  | _ => True

instance [Fintype T] (s : Channels T) : ∀ l, Decidable (s.Apart l)
  | .send .keepAlive _ => inferInstanceAs (Decidable (∀ t, (s.pcs (.user t)).isWaiting = false))
  | .send (.user _) _ => inferInstanceAs (Decidable ((s.pcs .keepAlive).isWaiting = false))
  | .lock _ | .unlock _ | .requestShutdown | .sendKeepalive | .exchange | .receive _
  | .processMessage _ => inferInstanceAs (Decidable True)

def underWay (s : Channels T) : List Message :=
  s.toApp.map (·.request) ++ s.toRoudi.filter (·.cmd ≠ .keepalive)

structure Paired (s : Channels T) : Prop where
  owner : ∀ t, s.pcs (.user t) ≠ .idle → s.mutex = some t
  alone : ∀ c c' m m', s.pcs c = .waiting m → s.pcs c' = .waiting m' → c = c'
  awaited : ∀ c m, s.pcs c = .waiting m → s.underWay = [m]
  quiet : (∀ c m, s.pcs c ≠ .waiting m) → s.underWay = []
  matched : ∀ c m r, (c, m, r) ∈ s.receipts → r.request = m

theorem goto_self (c : Caller T) (pc : Pc) (s : Channels T) : (s.goto c pc).pcs c = pc :=
  Function.update_self ..

theorem goto_of_ne {c c' : Caller T} (h : c' ≠ c) (pc : Pc) (s : Channels T) :
    (s.goto c pc).pcs c' = s.pcs c' :=
  Function.update_of_ne h ..

theorem waiting_goto_iff {s : Channels T} {c c' : Caller T} {pc : Pc} {m : Message}
    (hold : ∀ m, s.pcs c ≠ .waiting m) (hnew : ∀ m, pc ≠ .waiting m) :
    (s.goto c pc).pcs c' = .waiting m ↔ s.pcs c' = .waiting m := by
  by_cases h : c' = c
  · subst h
    rw [goto_self]
    exact iff_of_false (hnew m) (hold m)
  · rw [goto_of_ne h]

theorem owner_goto_keepAlive {s : Channels T} (h : s.Paired) (pc : Pc) (t : T)
    (ht : (s.goto .keepAlive pc).pcs (.user t) ≠ .idle) : s.mutex = some t := by
  rw [goto_of_ne (by simp)] at ht
  exact h.owner t ht

namespace Paired

omit [DecidableEq T] in
theorem of_same {s s' : Channels T} (h : s.Paired)
    (hpcs : ∀ c m, s'.pcs c = .waiting m ↔ s.pcs c = .waiting m)
    (hunderWay : s'.underWay = s.underWay) (hreceipts : s'.receipts = s.receipts)
    (howner : ∀ t, s'.pcs (.user t) ≠ .idle → s'.mutex = some t) : s'.Paired where
  owner := howner
  alone c c' m m' hc hc' := h.alone c c' m m' ((hpcs c m).mp hc) ((hpcs c' m').mp hc')
  awaited c m hc := by
    rw [hunderWay]
    exact h.awaited c m ((hpcs c m).mp hc)
  quiet hnone := by
    rw [hunderWay]
    exact h.quiet fun c m hc => hnone c m ((hpcs c m).mpr hc)
  matched c m r hr := h.matched c m r (hreceipts ▸ hr)

theorem lock {s : Channels T} (h : s.Paired) {t : T} (hidle : s.pcs (.user t) = .idle)
    (hfree : s.mutex = none) : Paired { s.goto (.user t) .ready with mutex := some t } := by
  refine h.of_same (fun c m => waiting_goto_iff (by simp [hidle]) (by simp)) rfl rfl ?_
  intro t' ht'
  by_cases heq : t' = t
  · rw [heq]
  · have hpc : (s.goto (.user t) .ready).pcs (.user t') ≠ .idle := ht'
    rw [goto_of_ne (by simpa using heq)] at hpc
    have := h.owner t' hpc
    rw [hfree] at this
    cases this

theorem unlock {s : Channels T} (h : s.Paired) {t : T} (hpc : s.pcs (.user t) = .received) :
    Paired { s.goto (.user t) .idle with mutex := none } := by
  refine h.of_same (fun c m => waiting_goto_iff (by simp [hpc]) (by simp)) rfl rfl ?_
  intro t' ht'
  have hpc' : (s.goto (.user t) .idle).pcs (.user t') ≠ .idle := ht'
  by_cases heq : t' = t
  · rw [heq, goto_self] at hpc'
    exact absurd rfl hpc'
  · rw [goto_of_ne (by simpa using heq)] at hpc'
    have hmine := h.owner t (by simp [hpc])
    rw [h.owner t' hpc'] at hmine
    exact absurd (Option.some.inj hmine) heq

omit [DecidableEq T] in
theorem nobody_waits {s : Channels T} (h : s.Paired) {c : Caller T} {cmd : IpcMessageType}
    (hready : s.pcs c = .ready) (hapart : s.Apart (.send c cmd)) (c' : Caller T) (m : Message) :
    s.pcs c' ≠ .waiting m := by
  intro hc'
  have hne : c' ≠ c := by
    rintro rfl
    rw [hready] at hc'
    cases hc'
  match c, c' with
  | .keepAlive, .keepAlive => exact hne rfl
  | .keepAlive, .user t =>
    have hidle : (s.pcs (.user t)).isWaiting = false := hapart t
    rw [hc'] at hidle
    cases hidle
  | .user t, .keepAlive =>
    have hidle : (s.pcs .keepAlive).isWaiting = false := hapart
    rw [hc'] at hidle
    cases hidle
  | .user t, .user t' =>
    have hmine := h.owner t (by simp [hready])
    rw [h.owner t' (by simp [hc'])] at hmine
    exact hne (congrArg Caller.user (Option.some.inj hmine))

theorem send {s : Channels T} (h : s.Paired) {c : Caller T} {cmd : IpcMessageType}
    (hready : s.pcs c = .ready) (hcmd : cmd ∈ c.requests) (hapart : s.Apart (.send c cmd)) :
    ((s.goto c (.waiting { serial := s.serial, cmd := cmd })).post cmd).Paired := by
  have hnone := h.nobody_waits hready hapart
  have hne : cmd ≠ .keepalive := by
    rintro rfl
    cases c <;> simp [Caller.requests] at hcmd
  have hunderWay : ((s.goto c (.waiting { serial := s.serial, cmd := cmd })).post cmd).underWay =
      [{ serial := s.serial, cmd := cmd }] := by
    have hquiet := h.quiet hnone
    rw [underWay, List.append_eq_nil_iff] at hquiet
    simp only [underWay, post, goto, List.filter_append, hquiet.1, hquiet.2]
    simp [hne]
  have hwaiting : ∀ c' m,
      ((s.goto c (.waiting { serial := s.serial, cmd := cmd })).post cmd).pcs c' = .waiting m →
      c' = c ∧ m = { serial := s.serial, cmd := cmd } := by
    intro c' m hc'
    have hpc : (s.goto c (.waiting { serial := s.serial, cmd := cmd })).pcs c' = .waiting m := hc'
    by_cases heq : c' = c
    · rw [heq, goto_self] at hpc
      exact ⟨heq, (Pc.waiting.inj hpc).symm⟩
    · rw [goto_of_ne heq] at hpc
      exact absurd hpc (hnone c' m)
  refine ⟨?_, ?_, ?_, ?_, h.matched⟩
  · intro t ht
    have hpc : (s.goto c (.waiting { serial := s.serial, cmd := cmd })).pcs (.user t) ≠ .idle := ht
    apply h.owner t
    by_cases heq : Caller.user t = c
    · rw [heq, hready]
      simp
    · rwa [goto_of_ne heq] at hpc
  · intro c₁ c₂ m₁ m₂ h₁ h₂
    rw [(hwaiting c₁ m₁ h₁).1, (hwaiting c₂ m₂ h₂).1]
  · intro c' m hc'
    rw [hunderWay, (hwaiting c' m hc').2]
  · intro hnobody
    exact absurd (goto_self c _ s) (hnobody c _)

theorem receive {s : Channels T} (h : s.Paired) {c : Caller T} {sent : Message} {reply : Reply}
    {rest : List Reply} (hpc : s.pcs c = .waiting sent) (happ : s.toApp = reply :: rest) :
    Paired { s.goto c c.afterReceive with
      toApp := rest
      receipts := s.receipts ++ [(c, sent, reply)] } := by
  have hawaited := h.awaited c sent hpc
  simp only [underWay, happ, List.map_cons, List.cons_append, List.cons.injEq,
    List.append_eq_nil_iff, List.map_eq_nil_iff] at hawaited
  obtain ⟨hreply, hrest, hnone⟩ := hawaited
  have hafter : ∀ m, c.afterReceive ≠ .waiting m := by
    cases c <;> simp [Caller.afterReceive]
  have hwaiting : ∀ c' m, (s.goto c c.afterReceive).pcs c' ≠ .waiting m := by
    intro c' m hc'
    by_cases heq : c' = c
    · rw [heq, goto_self] at hc'
      exact hafter m hc'
    · rw [goto_of_ne heq] at hc'
      exact heq (h.alone c' c m sent hc' hpc)
  refine ⟨?_, ?_, ?_, ?_, ?_⟩
  · intro t ht
    have hpc' : (s.goto c c.afterReceive).pcs (.user t) ≠ .idle := ht
    apply h.owner t
    by_cases heq : Caller.user t = c
    · rw [heq, hpc]
      simp
    · rwa [goto_of_ne heq] at hpc'
  · intro c₁ c₂ m₁ m₂ h₁
    exact absurd h₁ (hwaiting c₁ m₁)
  · intro c' m hc'
    exact absurd hc' (hwaiting c' m)
  · intro _
    simp only [underWay, goto]
    rw [hrest, hnone]
    rfl
  · intro c' m r hr
    simp only [List.mem_append, List.mem_singleton, Prod.mk.injEq] at hr
    rcases hr with hr | ⟨-, rfl, rfl⟩
    · exact h.matched c' m r hr
    · exact hreply

theorem step {s s' : Channels T} {l : ChannelStep T} (h : s.Paired) (hapart : s.Apart l)
    (hstep : s.step l = some s') : s'.Paired := by
  cases l with
  | lock t =>
    simp only [Channels.step, Option.ite_none_right_eq_some, Option.some.injEq] at hstep
    obtain ⟨⟨hidle, hfree⟩, rfl⟩ := hstep
    exact h.lock hidle hfree
  | unlock t =>
    simp only [Channels.step, Option.ite_none_right_eq_some, Option.some.injEq] at hstep
    obtain ⟨hpc, rfl⟩ := hstep
    exact h.unlock hpc
  | requestShutdown =>
    cases hstep
    exact h.of_same (fun _ _ => Iff.rfl) rfl rfl h.owner
  | sendKeepalive =>
    simp only [Channels.step, Option.ite_none_right_eq_some, Option.some.injEq] at hstep
    obtain ⟨hpc, rfl⟩ := hstep
    refine h.of_same (fun c m => waiting_goto_iff (by simp [hpc]) (by simp)) ?_ rfl
      (owner_goto_keepAlive h .exchanging)
    simp [underWay, post, goto]
  | exchange =>
    simp only [Channels.step, Option.ite_none_right_eq_some, Option.some.injEq] at hstep
    obtain ⟨hpc, rfl⟩ := hstep
    refine h.of_same (fun c m => waiting_goto_iff (by simp [hpc]) ?_) rfl rfl
      (owner_goto_keepAlive h (if s.shutdownRequested then .ready else .idle))
    split <;> simp
  | send c cmd =>
    simp only [Channels.step, Option.ite_none_right_eq_some, Option.some.injEq] at hstep
    obtain ⟨⟨hready, hcmd⟩, rfl⟩ := hstep
    exact h.send hready hcmd hapart
  | receive c =>
    simp only [Channels.step] at hstep
    split at hstep
    · next hpc happ =>
      cases hstep
      exact h.receive hpc happ
    · cases hstep
  | processMessage content =>
    simp only [Channels.step] at hstep
    split at hstep
    · cases hstep
    · next m rest hqueue =>
      split at hstep
      · next hcmd =>
        cases hstep
        refine h.of_same (fun _ _ => Iff.rfl) ?_ rfl h.owner
        simp [underWay, hqueue, hcmd]
      · next hcmd =>
        cases hstep
        refine h.of_same (fun _ _ => Iff.rfl) ?_ rfl h.owner
        simp [underWay, hqueue, hcmd]

omit [DecidableEq T] in
theorem start : ({} : Channels T).Paired := by
  constructor <;> simp [underWay]

end Paired

/-- As long as the shutdown preparation and a request of a user thread are never
under way together, every caller receives the reply to its own request. -/
theorem reply_reaches_its_request (ls : List (ChannelStep T)) (s : Channels T)
    (happart : Lib.Meets step Apart {} ls) (hrun : Lib.runSteps step {} ls = some s)
    {c : Caller T} {sent : Message} {reply : Reply} (hr : (c, sent, reply) ∈ s.receipts) :
    reply.request = sent :=
  (Lib.runSteps_invariant (I := Paired) (fun _ _ _ h hl hs => h.step hl hs) ls {} s Paired.start
    happart hrun).matched c sent reply hr

def createThenShutdown : List (ChannelStep Unit) :=
  [.lock (), .send (.user ()) .createPublisher, .requestShutdown, .sendKeepalive, .exchange,
    .processMessage .createPublisherAck, .receive (.user ()), .unlock (), .processMessage .notype,
    .send .keepAlive .prepareAppTermination, .processMessage .prepareAppTerminationAck,
    .receive .keepAlive]

theorem reply_reaches_its_request_shutdown :
    ∃ s : Channels Unit, Lib.runSteps step {} createThenShutdown = some s ∧
      Lib.Meets step Apart {} createThenShutdown ∧ s.receipts.length = 2 ∧
      ∀ c sent reply, (c, sent, reply) ∈ s.receipts → reply.request = sent :=
  ⟨_, rfl, by decide, rfl, fun _ _ _ hr =>
    reply_reaches_its_request createThenShutdown _ (by decide) rfl hr⟩

theorem reply_taken_by_keepAlive :
    ∃ s : Channels Unit,
      Lib.runSteps step {}
        [.requestShutdown, .sendKeepalive, .exchange, .lock (),
          .send (.user ()) .createPublisher, .send .keepAlive .prepareAppTermination,
          .processMessage .notype, .processMessage .createPublisherAck, .receive .keepAlive] =
        some s ∧
      (.keepAlive, { serial := 2, cmd := .prepareAppTermination },
        { request := { serial := 1, cmd := .createPublisher }, content := .createPublisherAck })
          ∈ s.receipts :=
  ⟨_, rfl, by decide⟩

end Channels

end Iceoryx.Runtime
