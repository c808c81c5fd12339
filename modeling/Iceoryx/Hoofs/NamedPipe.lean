import Mathlib.Algebra.Order.BigOperators.Group.Finset
import Iceoryx.Lib.Calls
import Iceoryx.Lib.Run
import Iceoryx.Lib.Sum
import Iceoryx.Hoofs.Convert

/-! `NamedPipe`: two counting semaphores around a `LockFreeQueue`.  One step is one
operation on a semaphore, one push or one pop. -/

namespace Iceoryx.Hoofs

inductive IpcChannelError
  | notInitialized
  | accessDenied
  | noSuchChannel
  | internalLogicError
  | channelAlreadyExists
  | invalidArguments
  | maxMessageSizeExceeded
  | messageTooLong
  | channelFull
  | invalidChannelName
  | timeout
  | processLimit
  | systemLimit
  | outOfMemory
  | invalidFileDescriptor
  | ioError
  | connectionResetByPeer
  | undefined
  deriving DecidableEq, Repr

namespace NamedPipe

def maxMessageSize : Nat := 4 * 1024

def maxNumberOfMessages : Nat := 10

def toMessage (message : List Char) : List Char := message.take maxMessageSize

/-- `LockFreeQueue::push` drops the oldest element of a full queue. -/
def push (messages : List (List Char)) (message : List Char) : List (List Char) :=
  if messages.length < maxNumberOfMessages then messages ++ [message]
  else messages.tail ++ [message]

/-- `Semaphore::wait`, `tryWait` and `timedWait`, as `send`, `trySend` and `timedSend` call
them. -/
inductive Wait
  | wait
  | tryWait
  | timedWait
  deriving DecidableEq, Repr

inductive Pc
  | idle
  | sendWait (kind : Wait) (message : List Char)
  | push (message : List Char)
  | receivePost (message : List Char)
  | receiveWait (kind : Wait)
  | pop
  | sendPost (message : List Char)
  deriving DecidableEq, Repr

namespace Pc

/-- The thread has taken a count of the send semaphore that no stored message stands for. -/
def sendToken : Pc → Nat
  | .push _ => 1
  | .sendPost _ => 1
  | _ => 0

/-- A stored message that the thread has not posted yet, or is about to take. -/
def receiveToken : Pc → Nat
  | .receivePost _ => 1
  | .pop => 1
  | _ => 0

def pushed : Pc → Option (List Char)
  | .receivePost message => some message
  | _ => none

def popped : Pc → Option (List Char)
  | .sendPost message => some message
  | _ => none

end Pc

inductive Act
  | send (kind : Wait) (message : List Char)
  | receive (kind : Wait)
  | advance
  | timeout
  deriving DecidableEq

end NamedPipe

/-- `NamedPipeData` and the threads that work on it.  `sends` and `receives` are the books
of the calls: the messages pushed and popped, and what the calls returned. -/
structure NamedPipe (Tid : Type) where
  sendSemaphore : Nat
  receiveSemaphore : Nat
  messages : List (List Char)
  pc : Tid → NamedPipe.Pc
  sends : Lib.Calls Tid (List Char) (List Char × Option IpcChannelError)
  receives : Lib.Calls Tid (List Char) (Except IpcChannelError (List Char))

namespace NamedPipe

variable {Tid : Type}

def create (maxMsgNumber : Nat) : NamedPipe Tid where
  sendSemaphore := maxMsgNumber % 2 ^ 32
  receiveSemaphore := 0
  messages := []
  pc := fun _ => .idle
  sends := .empty
  receives := .empty

section Steps

variable [DecidableEq Tid]

def goto (s : NamedPipe Tid) (t : Tid) (p : Pc) : NamedPipe Tid :=
  { s with pc := Function.update s.pc t p }

def sendReturns (s : NamedPipe Tid) (t : Tid) (message : List Char)
    (error : Option IpcChannelError) : NamedPipe Tid :=
  { s.goto t .idle with sends := s.sends.ends t (message, error) }

def receiveReturns (s : NamedPipe Tid) (t : Tid)
    (result : Except IpcChannelError (List Char)) : NamedPipe Tid :=
  { s.goto t .idle with receives := s.receives.ends t result }

def advance (s : NamedPipe Tid) (t : Tid) : Option (NamedPipe Tid) :=
  match s.pc t with
  | .idle => none
  | .sendWait kind message =>
    if 0 < s.sendSemaphore then
      some ({ s with sendSemaphore := s.sendSemaphore - 1 }.goto t (.push message))
    else if kind = .tryWait then some (s.sendReturns t message (some .timeout))
    else none
  | .push message =>
    some ({ s with
      messages := push s.messages (toMessage message)
      sends := s.sends.takesEffect t message }.goto t (.receivePost message))
  | .receivePost message =>
    some ({ s with receiveSemaphore := s.receiveSemaphore + 1 }.sendReturns t message none)
  | .receiveWait kind =>
    if 0 < s.receiveSemaphore then
      some ({ s with receiveSemaphore := s.receiveSemaphore - 1 }.goto t .pop)
    else if kind = .tryWait then some (s.receiveReturns t (.error .timeout))
    else none
  | .pop =>
    match s.messages with
    | [] => some (s.receiveReturns t (.error .internalLogicError))
    | message :: messages =>
      some ({ s with
        messages := messages
        receives := s.receives.takesEffect t message }.goto t (.sendPost message))
  | .sendPost message =>
    some ({ s with sendSemaphore := s.sendSemaphore + 1 }.receiveReturns t (.ok (cStr message)))

/-- `isInitialized t` is `m_isInitialized` of the `NamedPipe` of the thread `t`.  A timed
wait may time out at any moment. -/
def step (isInitialized : Tid → Bool) (s : NamedPipe Tid) : Tid × Act → Option (NamedPipe Tid)
  | (t, .send kind message) =>
    if s.pc t = .idle then
      if isInitialized t = false then some (s.sendReturns t message (some .notInitialized))
      else if message.length > maxMessageSize then
        some (s.sendReturns t message (some .messageTooLong))
      else some (s.goto t (.sendWait kind message))
    else none
  | (t, .receive kind) =>
    if s.pc t = .idle then
      if isInitialized t = false then some (s.receiveReturns t (.error .notInitialized))
      else some (s.goto t (.receiveWait kind))
    else none
  | (t, .advance) => s.advance t
  | (t, .timeout) =>
    match s.pc t with
    | .sendWait .timedWait message => some (s.sendReturns t message (some .timeout))
    | .receiveWait .timedWait => some (s.receiveReturns t (.error .timeout))
    | _ => none

end Steps

theorem push_of_lt {messages : List (List Char)} (h : messages.length < maxNumberOfMessages)
    (message : List Char) : push messages message = messages ++ [message] := if_pos h

variable [Fintype Tid]

def sendTokens (s : NamedPipe Tid) : Nat := ∑ t, (s.pc t).sendToken

def receiveTokens (s : NamedPipe Tid) : Nat := ∑ t, (s.pc t).receiveToken

theorem sendToken_le (s : NamedPipe Tid) (t : Tid) : (s.pc t).sendToken ≤ s.sendTokens :=
  Finset.single_le_sum (f := fun t => (s.pc t).sendToken) (fun _ _ => Nat.zero_le _)
    (Finset.mem_univ t)

theorem receiveToken_le (s : NamedPipe Tid) (t : Tid) :
    (s.pc t).receiveToken ≤ s.receiveTokens :=
  Finset.single_le_sum (f := fun t => (s.pc t).receiveToken) (fun _ _ => Nat.zero_le _)
    (Finset.mem_univ t)

def sent (message : List Char) : List Char × Option IpcChannelError := (message, none)

def sendFailed (r : List Char × Option IpcChannelError) : Prop := r.2 ≠ none

def received (message : List Char) : Except IpcChannelError (List Char) := .ok (cStr message)

def receiveFailed (r : Except IpcChannelError (List Char)) : Prop := ∃ e, r = .error e

structure Consistent (maxMsgNumber : Nat) (s : NamedPipe Tid) : Prop where
  sendCount : s.sendSemaphore + s.sendTokens + s.messages.length = maxMsgNumber
  receiveCount : s.receiveSemaphore + s.receiveTokens = s.messages.length
  order : s.sends.effects.map (fun e => toMessage e.2) =
    s.receives.effects.map Prod.snd ++ s.messages
  sends : s.sends.Sound sent sendFailed
  receives : s.receives.Sound received receiveFailed
  pushed : ∀ t, s.sends.pending t = (s.pc t).pushed
  popped : ∀ t, s.receives.pending t = (s.pc t).popped
  noLogicError : ∀ call, (call, .error .internalLogicError) ∉ s.receives.returns

variable {maxMsgNumber : Nat} {s s' : NamedPipe Tid}

theorem Consistent.create (h : maxMsgNumber ≤ maxNumberOfMessages) :
    (create maxMsgNumber : NamedPipe Tid).Consistent maxMsgNumber := by
  refine ⟨?_, ?_, rfl, .empty, .empty, fun _ => rfl, fun _ => rfl, ?_⟩
  · have htokens : (NamedPipe.create maxMsgNumber : NamedPipe Tid).sendTokens = 0 :=
      Finset.sum_eq_zero fun _ _ => rfl
    have hmod : maxMsgNumber % 2 ^ 32 = maxMsgNumber :=
      Nat.mod_eq_of_lt (lt_of_le_of_lt h (by decide))
    rw [htokens]
    exact hmod
  · simp [NamedPipe.create, receiveTokens, Pc.receiveToken]
  · simp [NamedPipe.create, Lib.Calls.empty]

variable [DecidableEq Tid]

theorem sendTokens_of_pc {t : Tid} {p : Pc} (hpc : s'.pc = Function.update s.pc t p) :
    s'.sendTokens + (s.pc t).sendToken = s.sendTokens + p.sendToken := by
  rw [sendTokens, hpc]
  exact Lib.sum_update Pc.sendToken s.pc t p

theorem receiveTokens_of_pc {t : Tid} {p : Pc} (hpc : s'.pc = Function.update s.pc t p) :
    s'.receiveTokens + (s.pc t).receiveToken = s.receiveTokens + p.receiveToken := by
  rw [receiveTokens, hpc]
  exact Lib.sum_update Pc.receiveToken s.pc t p

namespace Consistent

omit [DecidableEq Tid] in
theorem length_messages_le (h : s.Consistent maxMsgNumber) : s.messages.length ≤ maxMsgNumber := by
  have := h.sendCount
  omega

omit [DecidableEq Tid] in
theorem room (h : s.Consistent maxMsgNumber) {t : Tid} (ht : (s.pc t).sendToken = 1) :
    s.messages.length < maxMsgNumber := by
  have := h.sendCount
  have := s.sendToken_le t
  omega

omit [DecidableEq Tid] in
theorem messages_ne_nil (h : s.Consistent maxMsgNumber) {t : Tid} (ht : s.pc t = .pop) :
    s.messages ≠ [] := by
  have hcount := h.receiveCount
  have hle := s.receiveToken_le t
  rw [ht] at hle
  simp only [Pc.receiveToken] at hle
  intro hnil
  rw [hnil, List.length_nil] at hcount
  omega

theorem move (h : s.Consistent maxMsgNumber) (t : Tid) (p : Pc)
    (hpc : s'.pc = Function.update s.pc t p)
    (hsend : s'.sendSemaphore + p.sendToken + s'.messages.length =
      s.sendSemaphore + (s.pc t).sendToken + s.messages.length)
    (hreceive : s'.receiveSemaphore + p.receiveToken + s.messages.length =
      s.receiveSemaphore + (s.pc t).receiveToken + s'.messages.length)
    (horder : s'.sends.effects.map (fun e => toMessage e.2) =
      s'.receives.effects.map Prod.snd ++ s'.messages)
    (hsends : s'.sends.Sound sent sendFailed) (hreceives : s'.receives.Sound received receiveFailed)
    (hpushed : s'.sends.pending = Function.update s.sends.pending t p.pushed)
    (hpopped : s'.receives.pending = Function.update s.receives.pending t p.popped)
    (hnoLogicError : ∀ call, (call, .error .internalLogicError) ∉ s'.receives.returns) :
    s'.Consistent maxMsgNumber := by
  have hsent := h.sendCount
  have hreceived := h.receiveCount
  have hsendTokens := sendTokens_of_pc hpc
  have hreceiveTokens := receiveTokens_of_pc hpc
  refine ⟨by omega, by omega, horder, hsends, hreceives, ?_, ?_, hnoLogicError⟩
  · intro u
    rw [hpushed, hpc]
    by_cases hu : u = t
    · rw [hu, Function.update_self, Function.update_self]
    · rw [Function.update_of_ne hu, Function.update_of_ne hu]
      exact h.pushed u
  · intro u
    rw [hpopped, hpc]
    by_cases hu : u = t
    · rw [hu, Function.update_self, Function.update_self]
    · rw [Function.update_of_ne hu, Function.update_of_ne hu]
      exact h.popped u

theorem pending_sends (h : s.Consistent maxMsgNumber) {t : Tid} {p : Pc}
    (hp : (s.pc t).pushed = p.pushed) :
    s.sends.pending = Function.update s.sends.pending t p.pushed := by
  rw [← hp, ← h.pushed t, Function.update_eq_self]

theorem pending_receives (h : s.Consistent maxMsgNumber) {t : Tid} {p : Pc}
    (hp : (s.pc t).popped = p.popped) :
    s.receives.pending = Function.update s.receives.pending t p.popped := by
  rw [← hp, ← h.popped t, Function.update_eq_self]

theorem semaphores (h : s.Consistent maxMsgNumber) {t : Tid} {p : Pc} (send receive : Nat)
    (hsend : send + p.sendToken = s.sendSemaphore + (s.pc t).sendToken)
    (hreceive : receive + p.receiveToken = s.receiveSemaphore + (s.pc t).receiveToken)
    (hpushed : (s.pc t).pushed = p.pushed) (hpopped : (s.pc t).popped = p.popped) :
    ({ s with sendSemaphore := send, receiveSemaphore := receive }.goto t p).Consistent
      maxMsgNumber := by
  refine h.move t p rfl ?_ ?_ h.order h.sends h.receives (h.pending_sends hpushed)
    (h.pending_receives hpopped) h.noLogicError
  · simp only [goto]
    omega
  · simp only [goto]
    omega

theorem sendReturns (h : s.Consistent maxMsgNumber) {t : Tid} (receive : Nat)
    {message : List Char} {error : Option IpcChannelError}
    (hsend : (s.pc t).sendToken = 0)
    (hreceive : receive = s.receiveSemaphore + (s.pc t).receiveToken)
    (hpushed : match (s.pc t).pushed with
      | some m => sent m = (message, error)
      | none => error ≠ none)
    (hpopped : (s.pc t).popped = none) :
    ({ s with receiveSemaphore := receive }.sendReturns t message error).Consistent
      maxMsgNumber := by
  refine h.move t .idle rfl ?_ ?_ h.order (h.sends.ends ?_) h.receives rfl
    (h.pending_receives hpopped) h.noLogicError
  · rw [hsend]
    rfl
  · simp only [NamedPipe.sendReturns, goto, Pc.receiveToken, hreceive]
    omega
  · rw [h.pushed t]
    cases hm : (s.pc t).pushed with
    | some m =>
      rw [hm] at hpushed
      exact hpushed
    | none =>
      rw [hm] at hpushed
      exact hpushed

theorem receiveReturns (h : s.Consistent maxMsgNumber) {t : Tid} (send : Nat)
    {result : Except IpcChannelError (List Char)}
    (hsend : send = s.sendSemaphore + (s.pc t).sendToken)
    (hreceive : (s.pc t).receiveToken = 0)
    (hpushed : (s.pc t).pushed = none)
    (hpopped : match (s.pc t).popped with
      | some m => received m = result
      | none => ∃ e, result = .error e)
    (herror : result ≠ .error .internalLogicError) :
    ({ s with sendSemaphore := send }.receiveReturns t result).Consistent maxMsgNumber := by
  refine h.move t .idle rfl ?_ ?_ h.order h.sends (h.receives.ends ?_)
    (h.pending_sends hpushed) rfl ?_
  · simp only [NamedPipe.receiveReturns, goto, Pc.sendToken, hsend]
    omega
  · rw [hreceive]
    rfl
  · rw [h.popped t]
    cases hm : (s.pc t).popped with
    | some m =>
      rw [hm] at hpopped
      exact hpopped
    | none =>
      rw [hm] at hpopped
      exact hpopped
  · intro call hcall
    rcases List.mem_append.mp hcall with hcall | hcall
    · exact h.noLogicError call hcall
    · exact herror (Prod.mk.inj (List.mem_singleton.mp hcall)).2.symm

theorem push (h : s.Consistent maxMsgNumber) (hmax : maxMsgNumber ≤ maxNumberOfMessages)
    {t : Tid} {message : List Char} (hpc : s.pc t = .push message) :
    ({ s with
      messages := NamedPipe.push s.messages (toMessage message)
      sends := s.sends.takesEffect t message }.goto t (.receivePost message)).Consistent
      maxMsgNumber := by
  have hroom : s.messages.length < maxMsgNumber := h.room (by rw [hpc]; rfl)
  rw [push_of_lt (lt_of_lt_of_le hroom hmax)]
  have hpending : s.sends.pending t = none := by
    rw [h.pushed t, hpc]
    rfl
  refine h.move t (.receivePost message) rfl ?_ ?_ ?_ (h.sends.takesEffect hpending message)
    h.receives rfl (h.pending_receives (by rw [hpc]; rfl)) h.noLogicError
  · simp only [goto, hpc, Pc.sendToken, List.length_append, List.length_singleton]
    omega
  · simp only [goto, hpc, Pc.receiveToken, List.length_append, List.length_singleton]
    omega
  · simp only [goto, Lib.Calls.takesEffect, List.map_append, List.map_singleton, h.order,
      List.append_assoc]

theorem pop (h : s.Consistent maxMsgNumber) {t : Tid} {message : List Char}
    {messages : List (List Char)} (hpc : s.pc t = .pop)
    (hmessages : s.messages = message :: messages) :
    ({ s with
      messages := messages
      receives := s.receives.takesEffect t message }.goto t (.sendPost message)).Consistent
      maxMsgNumber := by
  have hpending : s.receives.pending t = none := by
    rw [h.popped t, hpc]
    rfl
  refine h.move t (.sendPost message) rfl ?_ ?_ ?_ h.sends
    (h.receives.takesEffect hpending message) (h.pending_sends (by rw [hpc]; rfl)) rfl
    h.noLogicError
  · simp only [goto, hpc, Pc.sendToken, hmessages, List.length_cons]
    omega
  · simp only [goto, hpc, Pc.receiveToken, hmessages, List.length_cons]
    omega
  · simp only [goto, Lib.Calls.takesEffect, List.map_append, List.map_singleton, h.order,
      hmessages, List.append_assoc, List.singleton_append]

theorem advance (h : s.Consistent maxMsgNumber) (hmax : maxMsgNumber ≤ maxNumberOfMessages)
    {t : Tid} (hstep : s.advance t = some s') : s'.Consistent maxMsgNumber := by
  unfold NamedPipe.advance at hstep
  cases hpc : s.pc t with
  | idle =>
    rw [hpc] at hstep
    cases hstep
  | sendWait kind message =>
    simp only [hpc] at hstep
    split at hstep
    · cases hstep
      refine h.semaphores _ s.receiveSemaphore ?_ ?_ ?_ ?_ <;> rw [hpc]
      · simp only [Pc.sendToken]
        omega
      · rfl
      · rfl
      · rfl
    · split at hstep
      · cases hstep
        refine h.sendReturns s.receiveSemaphore ?_ ?_ ?_ ?_ <;> rw [hpc]
        · rfl
        · rfl
        · exact Option.some_ne_none _
        · rfl
      · cases hstep
  | push message =>
    simp only [hpc, Option.some.injEq] at hstep
    subst hstep
    exact h.push hmax hpc
  | receivePost message =>
    simp only [hpc, Option.some.injEq] at hstep
    subst hstep
    refine h.sendReturns _ ?_ ?_ ?_ ?_ <;> rw [hpc] <;> rfl
  | receiveWait kind =>
    simp only [hpc] at hstep
    split at hstep
    · cases hstep
      refine h.semaphores s.sendSemaphore _ ?_ ?_ ?_ ?_ <;> rw [hpc]
      · rfl
      · simp only [Pc.receiveToken]
        omega
      · rfl
      · rfl
    · split at hstep
      · cases hstep
        refine h.receiveReturns s.sendSemaphore ?_ ?_ ?_ ?_ (by simp) <;> rw [hpc]
        · rfl
        · rfl
        · rfl
        · exact ⟨_, rfl⟩
      · cases hstep
  | pop =>
    cases hmessages : s.messages with
    | nil => exact absurd hmessages (h.messages_ne_nil hpc)
    | cons message messages =>
      simp only [hpc, hmessages, Option.some.injEq] at hstep
      subst hstep
      exact h.pop hpc hmessages
  | sendPost message =>
    simp only [hpc, Option.some.injEq] at hstep
    subst hstep
    refine h.receiveReturns _ ?_ ?_ ?_ ?_ (by simp) <;> rw [hpc] <;> rfl

theorem step (h : s.Consistent maxMsgNumber) (hmax : maxMsgNumber ≤ maxNumberOfMessages)
    {isInitialized : Tid → Bool} {l : Tid × Act} (hstep : s.step isInitialized l = some s') :
    s'.Consistent maxMsgNumber := by
  obtain ⟨t, a⟩ := l
  cases a with
  | advance => exact h.advance hmax hstep
  | send kind message =>
    simp only [NamedPipe.step] at hstep
    split at hstep
    case isFalse => cases hstep
    case isTrue hpc =>
      have hreturn : ∀ e : IpcChannelError,
          (s.sendReturns t message (some e)).Consistent maxMsgNumber := by
        intro e
        refine h.sendReturns s.receiveSemaphore ?_ ?_ ?_ ?_ <;> rw [hpc]
        · rfl
        · rfl
        · exact Option.some_ne_none e
        · rfl
      split at hstep
      · cases hstep
        exact hreturn _
      · split at hstep
        · cases hstep
          exact hreturn _
        · cases hstep
          refine h.semaphores s.sendSemaphore s.receiveSemaphore ?_ ?_ ?_ ?_ <;> rw [hpc] <;> rfl
  | receive kind =>
    simp only [NamedPipe.step] at hstep
    split at hstep
    case isFalse => cases hstep
    case isTrue hpc =>
      split at hstep
      · cases hstep
        refine h.receiveReturns s.sendSemaphore ?_ ?_ ?_ ?_ (by simp) <;> rw [hpc]
        · rfl
        · rfl
        · rfl
        · exact ⟨_, rfl⟩
      · cases hstep
        refine h.semaphores s.sendSemaphore s.receiveSemaphore ?_ ?_ ?_ ?_ <;> rw [hpc] <;> rfl
  | timeout =>
    simp only [NamedPipe.step] at hstep
    split at hstep
    · next hpc =>
      cases hstep
      refine h.sendReturns s.receiveSemaphore ?_ ?_ ?_ ?_ <;> rw [hpc]
      · rfl
      · rfl
      · exact Option.some_ne_none _
      · rfl
    · next hpc =>
      cases hstep
      refine h.receiveReturns s.sendSemaphore ?_ ?_ ?_ ?_ (by simp) <;> rw [hpc]
      · rfl
      · rfl
      · rfl
      · exact ⟨_, rfl⟩
    · cases hstep

theorem run (h : s.Consistent maxMsgNumber) (hmax : maxMsgNumber ≤ maxNumberOfMessages)
    {isInitialized : Tid → Bool} {ls : List (Tid × Act)}
    (hrun : Lib.runSteps (NamedPipe.step isInitialized) s ls = some s') :
    s'.Consistent maxMsgNumber :=
  Lib.runSteps_invariant (C := fun _ _ => True) (fun _ _ _ hI _ hstep => hI.step hmax hstep)
    ls s s' h (Lib.meets_true ls s) hrun

omit [DecidableEq Tid] in
theorem popped_or_stored (h : s.Consistent maxMsgNumber) {i : Nat} {call : Tid × Nat}
    {message : List Char} (hi : s.sends.effects[i]? = some (call, message)) :
    (∃ receiver, s.receives.effects[i]? = some (receiver, toMessage message)) ∨
      ∃ j, i = s.receives.effects.length + j ∧ s.messages[j]? = some (toMessage message) := by
  have hget : (s.receives.effects.map Prod.snd ++ s.messages)[i]? = some (toMessage message) := by
    rw [← h.order, List.getElem?_map, hi]
    rfl
  rcases Nat.lt_or_ge i s.receives.effects.length with hlt | hge
  · rw [List.getElem?_append_left (by rwa [List.length_map]), List.getElem?_map,
      Option.map_eq_some_iff] at hget
    obtain ⟨⟨receiver, m⟩, hpop, rfl⟩ := hget
    exact .inl ⟨receiver, hpop⟩
  · rw [List.getElem?_append_right (by rwa [List.length_map]), List.length_map] at hget
    exact .inr ⟨_, (Nat.add_sub_cancel' hge).symm, hget⟩

omit [DecidableEq Tid] in
theorem pushed_of_popped (h : s.Consistent maxMsgNumber) {i : Nat} {receiver : Tid × Nat}
    {m : List Char} (hi : s.receives.effects[i]? = some (receiver, m)) :
    ∃ call message, s.sends.effects[i]? = some (call, message) ∧ toMessage message = m := by
  have hlt : i < (s.receives.effects.map Prod.snd).length := by
    rw [List.length_map]
    exact (List.getElem?_eq_some_iff.mp hi).1
  have hget : (s.sends.effects.map fun e => toMessage e.2)[i]? = some m := by
    rw [h.order, List.getElem?_append_left hlt, List.getElem?_map, hi]
    rfl
  rw [List.getElem?_map, Option.map_eq_some_iff] at hget
  obtain ⟨⟨call, message⟩, hpush, hm⟩ := hget
  exact ⟨call, message, hpush, hm⟩

end Consistent

/-- The call pushed `message` once, and one call has popped it, and returns it, or it is
stored. -/
def Delivered (s : NamedPipe Tid) (call : Tid × Nat) (message : List Char) : Prop :=
  ∃ i, s.sends.effects[i]? = some (call, message) ∧
    (∀ j m, s.sends.effects[j]? = some (call, m) → j = i) ∧
    ((∃ receiver, s.receives.effects[i]? = some (receiver, message) ∧
        (∀ j m, s.receives.effects[j]? = some (receiver, m) → j = i) ∧
        ((receiver, .ok message) ∈ s.receives.returns ∨
          receiver.2 = s.receives.ended receiver.1 ∧ s.pc receiver.1 = .sendPost message)) ∨
      ∃ j, i = s.receives.effects.length + j ∧ s.messages[j]? = some message)

theorem Pc.popped_eq_some {p : Pc} {message : List Char} (h : p.popped = some message) :
    p = .sendPost message := by
  cases p with
  | sendPost m =>
    cases h
    rfl
  | _ => cases h

omit [DecidableEq Tid] in
theorem Consistent.delivered (h : s.Consistent maxMsgNumber) {call : Tid × Nat}
    {message : List Char} (hsent : (call, message, none) ∈ s.sends.returns)
    (hnul : '\x00' ∉ message) (hsize : message.length ≤ maxMessageSize) :
    s.Delivered call message := by
  obtain ⟨m, hm⟩ := (h.sends.failed call _ hsent).resolve_right fun hfailed => hfailed rfl
  obtain ⟨rfl, -⟩ := Prod.mk.inj (h.sends.returned call _ hsent m hm)
  obtain ⟨i, hi⟩ := List.mem_iff_getElem?.mp hm
  have hstored : toMessage m = m := List.take_of_length_le hsize
  have hread : received m = .ok m := congrArg Except.ok (cStr_eq_self hnul)
  refine ⟨i, hi, fun j m' hj => h.sends.index_unique hj hi, ?_⟩
  rcases h.popped_or_stored hi with ⟨receiver, hpop⟩ | ⟨j, hj, hm⟩
  · rw [hstored] at hpop
    refine .inl ⟨receiver, hpop, fun j m' hj => h.receives.index_unique hj hpop, ?_⟩
    rcases h.receives.effect receiver.1 receiver.2 m (List.mem_of_getElem? hpop) with hret | hrun
    · rw [hread] at hret
      exact .inl hret
    · rw [h.popped] at hrun
      exact .inr ⟨hrun.1, Pc.popped_eq_some hrun.2⟩
  · rw [hstored] at hm
    exact .inr ⟨j, hj, hm⟩

theorem loses_and_duplicates_nothing (hmax : maxMsgNumber ≤ maxNumberOfMessages)
    (isInitialized : Tid → Bool) (ls : List (Tid × Act))
    (hrun : Lib.runSteps (step isInitialized) (create maxMsgNumber) ls = some s) :
    (∀ call message, (call, message, none) ∈ s.sends.returns → '\x00' ∉ message →
      message.length ≤ maxMessageSize → s.Delivered call message) ∧
    (∀ receiver message, (receiver, .ok message) ∈ s.receives.returns →
      ∃ (i : Nat) (call : Tid × Nat) (m : List Char),
        s.receives.effects[i]? = some (receiver, toMessage m) ∧
        s.sends.effects[i]? = some (call, m) ∧ message = cStr (toMessage m)) ∧
    s.sends.effects.map (fun e => toMessage e.2) =
      s.receives.effects.map Prod.snd ++ s.messages ∧
    (∀ t, s.pc t = .pop → s.messages ≠ []) ∧
    (∀ receiver, (receiver, .error .internalLogicError) ∉ s.receives.returns) ∧
    s.messages.length ≤ maxMsgNumber ∧
    ∀ call message error, (call, message, some error) ∈ s.sends.returns →
      ∀ m, (call, m) ∉ s.sends.effects := by
  have h : s.Consistent maxMsgNumber := (Consistent.create hmax).run hmax hrun
  refine ⟨fun call message hsent hnul hsize => h.delivered hsent hnul hsize, ?_, h.order,
    fun t ht => h.messages_ne_nil ht, h.noLogicError, h.length_messages_le, ?_⟩
  · intro receiver message hret
    rcases h.receives.failed receiver _ hret with ⟨x, hx⟩ | ⟨e, he⟩
    · obtain ⟨i, hi⟩ := List.mem_iff_getElem?.mp hx
      obtain ⟨call, m, hpush, rfl⟩ := h.pushed_of_popped hi
      exact ⟨i, call, m, hi, hpush, (Except.ok.inj (h.receives.returned receiver _ hret _ hx)).symm⟩
    · cases he
  · intro call message error hret m hm
    cases (Prod.mk.inj (h.sends.returned call _ hret m hm)).2

def handover : List (Bool × Act) :=
  [(false, .send .wait ['a']), (false, .advance), (true, .receive .tryWait), (false, .advance),
    (false, .advance), (true, .advance), (true, .advance)]

theorem handover_delivers :
    ∃ s, Lib.runSteps (step fun _ => true) (create 1) handover = some s ∧
      s.messages = [] ∧ s.Delivered (false, 0) ['a'] := by
  have h : (Lib.runSteps (step fun _ => true) (create 1) handover).map
      (fun s => decide (s.messages = [] ∧ s.sends.returns = [((false, 0), ['a'], none)])) =
        some true := by
    decide
  obtain ⟨s, hs, hend⟩ := Option.map_eq_some_iff.mp h
  obtain ⟨hmessages, hreturns⟩ := of_decide_eq_true hend
  have hall := loses_and_duplicates_nothing (by decide) (fun _ => true) handover hs
  refine ⟨s, hs, hmessages, hall.1 (false, 0) ['a'] ?_ (by decide) (by decide)⟩
  rw [hreturns]
  exact List.mem_singleton_self _

end NamedPipe

end Iceoryx.Hoofs
