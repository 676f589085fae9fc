import Lethe.RdmaLink

namespace Lethe

/-!
# Delivery over an RDMA connection

Pushes are handed on by the receiver as they were given to Send, each at most
once and in the order of their posts.  A Send that succeeds was transmitted, so
that its push has been handed on or lies in a buffer of the receiver.
-/

namespace Rdma

open ByteMemory

/-! ## Successes of the send ring -/

namespace RingThreads

/-- Every success that is on its way or set is of a good promise. -/
structure Successes
    (ring : RingThreads)
    (good : Nat → Prop) :
    Prop where
  reports :
    ∀ wrId,
      (wrId, true) ∈ ring.completed ++ ring.batch →
      ∀ promise,
        ring.conn.pending.lookup wrId = some promise →
        good promise
  notifying : ∀ promise, ring.notifying = some (promise, true) → good promise
  settled : ∀ promise, (promise, true) ∈ ring.settled → good promise

section Inversions

variable (msgBytes : Nat) (ring : RingThreads) (event : RingEvent)

/-- Reports only come from the device. -/
theorem reports_next
    {report : UInt64 × Bool}
    (reported :
      report ∈
        (ring.next msgBytes event).completed ++
          (ring.next msgBytes event).batch) :
    report ∈ ring.completed ++ ring.batch ∨
      ∃ request,
        event = .complete request report.2 ∧
          ring.posted[request]? = some report.1 := by
  cases event <;>
    simp only [next, send, tryAcquire, post, putBack, complete, poll,
      handleCompletion, notify] at reported <;>
    grind [List.mem_of_mem_take, List.mem_of_mem_drop]

/-- The poller holds the verdict of a report. -/
theorem notifying_next
    {verdict : Nat × Bool}
    (holds : (ring.next msgBytes event).notifying = some verdict) :
    ring.notifying = some verdict ∨
      ∃ wrId,
        (wrId, verdict.2) ∈ ring.batch ∧
          ring.conn.pending.lookup wrId = some verdict.1 := by
  cases event <;>
    simp only [next, send, tryAcquire, post, putBack, complete, poll,
      handleCompletion, notify] at holds <;>
    grind

/-- Promises are set to what the poller holds, or to failure. -/
theorem settled_next
    {promise : Nat}
    (isSet : (promise, true) ∈ (ring.next msgBytes event).settled) :
    (promise, true) ∈ ring.settled ∨
      ring.notifying = some (promise, true) := by
  cases event <;>
    simp only [next, send, tryAcquire, post, putBack, complete, poll,
      handleCompletion, notify] at isSet <;>
    grind

end Inversions

/-- Successes stay good if the device reports only good ones. -/
theorem Successes.next
    (msgBytes : Nat)
    {ring : RingThreads}
    (sound : ring.Sound)
    (few : ring.started < 2 ^ 48)
    {good : Nat → Prop}
    (successes : ring.Successes good)
    (event : RingEvent)
    (reported :
      ∀ request wrId,
        event = .complete request true →
        ring.posted[request]? = some wrId →
        ∀ promise,
          ring.conn.pending.lookup wrId = some promise →
          good promise) :
    (ring.next msgBytes event).Successes good where
  reports := by
    intro wrId isReport promise present
    rcases reports_next msgBytes ring event isReport with
      old | ⟨request, isEvent, here⟩
    · refine successes.reports wrId old promise ?_
      refine lookup_of_next msgBytes sound few event ?_ present
      have isRequest := List.mem_map_of_mem (f := Prod.fst) old
      rw [List.map_append] at isRequest
      unfold requests
      exact List.mem_append_right _
        (List.mem_append_right _ (List.mem_append_right _ isRequest))
    · refine reported request wrId isEvent here promise ?_
      refine lookup_of_next msgBytes sound few event ?_ present
      exact mem_requests_of_posted (List.mem_of_getElem? here)
  notifying := by
    intro promise holds
    rcases notifying_next msgBytes ring event holds with
      old | ⟨wrId, polled, present⟩
    · exact successes.notifying promise old
    · exact successes.reports wrId (List.mem_append_right _ polled) promise
        present
  settled := by
    intro promise isSet
    rcases settled_next msgBytes ring event isSet with old | holds
    · exact successes.settled promise old
    · exact successes.notifying promise holds

/-- Successes of transmitted pushes stay so when more are transmitted. -/
theorem Successes.mono
    {ring : RingThreads}
    {good better : Nat → Prop}
    (successes : ring.Successes good)
    (mono : ∀ promise, good promise → better promise) :
    ring.Successes better where
  reports := fun wrId reported promise present =>
    mono promise (successes.reports wrId reported promise present)
  notifying := fun promise holds =>
    mono promise (successes.notifying promise holds)
  settled := fun promise isSet => mono promise (successes.settled promise isSet)

end RingThreads

/-! ## The order of posts -/

namespace Link

/-- The device transmits in the order of the posts, each post once. -/
structure Ordered
    (state : Link) :
    Prop where
  whole :
    state.broken = false →
      state.sent ++ state.unsent.map (fun request => request.held.promise) =
        state.posted
  first : state.sent <+: state.posted
  quiet : state.broken = true → state.unsent = []
  once : state.posted.Nodup
  old : ∀ promise ∈ state.posted, promise < state.ring.started
  apart : ∀ promise ∈ state.posted, promise ∉ state.ring.unposted

/-- A call that has posted is not among those that have still to post. -/
theorem notMem_unposted_of_post
    (msgBytes : Nat)
    {ring : RingThreads}
    (sound : ring.Sound)
    {call : Nat}
    {held : HeldBuffer}
    (here : ring.posting[call]? = some held)
    (accepted : Bool) :
    held.promise ∉ (ring.next msgBytes (.post call accepted)).unposted := by
  have effect := RingThreads.posted_of_post msgBytes sound here accepted
  have isPosting := List.mem_of_getElem? here
  intro isUnposted
  unfold RingThreads.unposted at isUnposted
  rw [effect.acquiring] at isUnposted
  rcases List.mem_append.1 isUnposted with waits | posts
  · have once : ring.promises.Nodup :=
      sound.promises.nodup_iff.2 List.nodup_range
    have entry := AList.mem_lookup_iff.1 (sound.inTable isPosting).1
    exact (List.nodup_append.1 once).2.2 held.promise waits held.promise
      (List.mem_append_left _ (List.mem_map.2 ⟨_, entry, rfl⟩)) rfl
  · obtain ⟨other, isOther, same⟩ := List.mem_map.1 posts
    obtain ⟨otherPosting, different⟩ := (effect.posting other).1 isOther
    exact different (sound.promise_inj otherPosting isPosting same)

section Ordering

variable {state : Link} (ordered : state.Ordered)

include ordered

theorem Ordered.breakDown :
    state.breakDown.Ordered :=
  { ordered with
    whole := fun isWhole => by contradiction
    quiet := fun _ => rfl }

theorem Ordered.transmit :
    state.transmit.Ordered := by
  have transmitted := state.transmission
  revert transmitted
  generalize state.transmit = after
  intro transmitted
  cases transmitted with
  | waits =>
      exact ordered
  | breaks =>
      exact ordered.breakDown
  | arrives request rest buffer receiver oldest isBuffer received =>
      have isOpen : state.broken = false := by
        by_contra closed
        rw [ordered.quiet (Bool.eq_true_of_not_eq_false closed)] at oldest
        contradiction
      have whole := ordered.whole isOpen
      rw [oldest, List.map_cons] at whole
      rw [← List.singleton_append, ← List.append_assoc] at whole
      exact
        { ordered with
          whole := fun _ => whole
          first := ⟨_, whole⟩
          quiet := fun closed => by
            rw [isOpen] at closed
            contradiction }

/-- A step of the ring brings back no promise that was posted. -/
theorem Ordered.of_ring
    (msgBytes : Nat)
    (sound : state.ring.Sound)
    (few : state.ring.started < 2 ^ 48)
    (event : RingEvent) :
    Ordered { state with ring := state.ring.next msgBytes event } :=
  { ordered with
    old := fun promise isPosted => by
      rw [RingThreads.started_next]
      exact Nat.lt_add_right _ (ordered.old promise isPosted)
    apart := fun promise isPosted isUnposted => by
      rcases RingThreads.unposted_next msgBytes sound few event isUnposted
        with known | ⟨_, _, _, _, isNew⟩
      · exact ordered.apart promise isPosted known
      · exact Nat.ne_of_lt (ordered.old promise isPosted) isNew }

theorem Ordered.post
    {msgBytes : Nat}
    (sound : state.SendSound msgBytes)
    (few : state.ring.started < 2 ^ 48)
    (call : Nat)
    (accepted : Bool) :
    (state.post msgBytes call accepted).Ordered := by
  unfold Link.post
  split
  next =>
    exact ordered
  next held here =>
    split
    next =>
      exact ordered
    next push isCall =>
      split
      next =>
        have after := ordered.of_ring msgBytes sound.ring few (.post call accepted)
        have isUnposted : held.promise ∈ state.ring.unposted :=
          List.mem_append_right _
            (List.mem_map_of_mem (List.mem_of_getElem? here))
        cases accepted with
        | false =>
            exact { after with }
        | true =>
            have isOld : held.promise < state.calls.length :=
              (List.getElem?_eq_some_iff.1 isCall).1
            refine ⟨?_, ?_, ?_, ?_, ?_, ?_⟩
            · intro isWhole
              have isOpen : state.broken = false := isWhole
              simp only [isOpen, and_self, if_true, List.map_append,
                List.map_singleton]
              rw [← List.append_assoc, ordered.whole isOpen]
            · exact ordered.first.trans (List.prefix_append _ _)
            · intro isBroken
              have closed : state.broken = true := isBroken
              simp only [closed, Bool.true_eq_false, and_false, if_false]
              exact ordered.quiet closed
            · refine List.nodup_append.2
                ⟨ordered.once, List.nodup_singleton _, ?_⟩
              intro promise isPosted other isHeld same
              rw [same, List.mem_singleton.1 isHeld] at isPosted
              exact ordered.apart held.promise isPosted isUnposted
            · intro promise isPosted
              rcases List.mem_append.1 isPosted with known | isHeld
              · exact after.old promise known
              · rw [List.mem_singleton.1 isHeld]
                dsimp only
                rw [RingThreads.started_next, ← sound.calls]
                exact Nat.lt_add_right _ isOld
            · intro promise isPosted
              rcases List.mem_append.1 isPosted with known | isHeld
              · exact after.apart promise known
              · rw [List.mem_singleton.1 isHeld]
                exact notMem_unposted_of_post msgBytes sound.ring here true
      next =>
        exact ordered

theorem Ordered.complete
    {msgBytes : Nat}
    (sound : state.ring.Sound)
    (few : state.ring.started < 2 ^ 48)
    (request : Nat)
    (ok : Bool) :
    (state.complete msgBytes request ok).Ordered := by
  unfold Link.complete
  split
  next =>
    exact ordered
  next =>
    split
    next =>
      split
      next =>
        exact
          { ordered.of_ring msgBytes sound few (.complete request true) with }
      next =>
        exact ordered
    next =>
      exact
        { ordered.breakDown.of_ring msgBytes sound few
            (.complete request false) with }

end Ordering

/-! ## What the receiver gets -/

/-- The message that the device reads from a written buffer. -/
theorem send_of_written
    {msgBytes : Nat}
    {push : ReceivedPush}
    (fits : headerBytes + push.payload.length ≤ msgCap msgBytes)
    (buffer : RegBuf) :
    Rdma.send msgBytes buffer push.id push.purpose push.payload =
      some
        (load (fillBuffer buffer push).mem 0
          (UInt32.ofNat (headerBytes + push.payload.length)).toNat) := by
  unfold Rdma.send
  rw [if_neg (Nat.not_lt.2 fits)]
  rfl

/-- Both ends are in order, and the receiver has what was transmitted. -/
structure Sound
    (msgBytes : Nat)
    (state : Link) :
    Prop where
  sending : state.SendSound msgBytes
  ordered : state.Ordered
  successes : state.ring.Successes fun promise => promise ∈ state.sent
  receiving : state.receiver.Sound
  pushes :
    (state.receiver.delivered ++ state.receiver.inbox).map some =
      state.sent.map fun promise => state.calls[promise]?

theorem start_sound
    (sendBytes recvBytes : Nat)
    (accepted : Nat → Bool) :
    (start sendBytes recvBytes accepted).Sound sendBytes where
  sending :=
    { ring := RingThreads.initial_sound
      calls := rfl
      fits := List.forall_mem_nil _
      filled := List.forall_mem_nil _
      filledOnce := List.nodup_nil
      known := List.forall_mem_nil _
      unsent := List.forall_mem_nil _
      onWire := List.forall_mem_nil _
      apart := List.nodup_nil }
  ordered :=
    { whole := fun _ => rfl
      first := List.prefix_rfl
      quiet := fun _ => rfl
      once := List.nodup_nil
      old := List.forall_mem_nil _
      apart := List.forall_mem_nil _ }
  successes :=
    { reports := fun _ known => (List.not_mem_nil known).elim
      notifying := fun _ known => by contradiction
      settled := fun _ known => (List.not_mem_nil known).elim }
  receiving := ReceiveRing.setupInbound_sound recvBytes accepted
  pushes := rfl

/-- The sending end changes, with at most one step of its ring. -/
structure SendStep
    (msgBytes : Nat)
    (event : RingEvent)
    (before after : Link) :
    Prop where
  ring :
    after.ring = before.ring ∨
      after.ring = before.ring.next msgBytes event
  calls : after.calls = before.calls
  sent : after.sent = before.sent
  receiver : after.receiver = before.receiver

theorem sendStep_post
    (msgBytes : Nat)
    (state : Link)
    (call : Nat)
    (accepted : Bool) :
    SendStep msgBytes (.post call accepted) state
      (state.post msgBytes call accepted) := by
  constructor <;>
    unfold post <;>
    grind

theorem sendStep_complete
    (msgBytes : Nat)
    (state : Link)
    (request : Nat)
    (ok : Bool) :
    SendStep msgBytes (.complete request ok) state
      (state.complete msgBytes request ok) := by
  constructor <;>
    unfold complete breakDown <;>
    grind

section Steps

variable {msgBytes : Nat} {state : Link} (sound : state.Sound msgBytes)

include sound

theorem Sound.fill
    (call : Nat) :
    Sound msgBytes (state.fill call) := by
  have sending := sound.sending.fill call
  obtain ⟨sendBufs, filled, isFill⟩ :
      ∃ sendBufs filled,
        state.fill call =
          { state with sendBufs := sendBufs, filled := filled } := by
    unfold Link.fill
    repeat' split
    all_goals exact ⟨_, _, rfl⟩
  rw [isFill] at sending ⊢
  exact { sound with sending := sending, ordered := { sound.ordered with } }

theorem Sound.breakDown :
    Sound msgBytes state.breakDown :=
  ⟨sound.sending.breakDown, sound.ordered.breakDown, sound.successes,
    sound.receiving, sound.pushes⟩

/-- The receiver gets the push of the oldest request. -/
theorem Sound.transmit
    (small : msgCap msgBytes < 2 ^ 32) :
    Sound msgBytes state.transmit := by
  have sending := sound.sending.transmit
  have ordered := sound.ordered.transmit
  have transmitted := state.transmission
  revert sending ordered transmitted
  generalize state.transmit = after
  intro sending ordered transmitted
  cases transmitted with
  | waits =>
      exact sound
  | breaks =>
      exact sound.breakDown
  | arrives request rest buffer receiver oldest isBuffer received =>
      obtain ⟨push, written, length⟩ :=
        sound.sending.unsent request (by
          rw [oldest]
          exact List.mem_cons_self)
      obtain ⟨original, isWritten⟩ := written.written
      rw [isBuffer] at isWritten
      cases isWritten
      rw [length] at received
      have arrived :=
        ReceiveRing.arrived_of_arrive sound.receiving
          (handleRecv_of_send small
            (send_of_written written.fits original))
          received
      refine ⟨sending, ordered, ?_, arrived.sound, ?_⟩
      · exact sound.successes.mono
          fun promise isSent => List.mem_append_left _ isSent
      · have before := sound.pushes
        simp only [arrived.delivered, arrived.inbox, List.map_append,
          List.map_cons, List.map_nil, written.isCall] at before ⊢
        rw [← List.append_assoc, before]

/-- A step of the receiving end alone. -/
theorem Sound.of_conserves
    {receiver : ReceiveRing}
    (conserves : ReceiveRing.Conserves state.receiver receiver) :
    Sound msgBytes { state with receiver := receiver } :=
  { sound with
    sending := { sound.sending with }
    ordered := { sound.ordered with }
    receiving := conserves.sound
    pushes := by
      dsimp only
      rw [conserves.pushes]
      exact sound.pushes }

variable (few : state.ring.started < 2 ^ 48)

include few

theorem Sound.of_quiet
    {event : RingEvent}
    (notSend : event.isSend = false)
    (notPost : ∀ call accepted, event ≠ .post call accepted)
    (notComplete : ∀ request ok, event ≠ .complete request ok) :
    Sound msgBytes { state with ring := state.ring.next msgBytes event } :=
  { sound with
    sending := sound.sending.of_quiet few notSend notPost notComplete
    ordered := sound.ordered.of_ring msgBytes sound.sending.ring few event
    successes :=
      sound.successes.next msgBytes sound.sending.ring few event
        fun request _ isComplete => (notComplete request true isComplete).elim }

theorem Sound.send
    (push : ReceivedPush)
    (connected : Bool) :
    Sound msgBytes (state.next msgBytes (.send push connected)) where
  sending := sound.sending.send few push connected
  ordered :=
    { sound.ordered.of_ring msgBytes sound.sending.ring few
        (.send push.payload.length connected) with }
  successes :=
    sound.successes.next msgBytes sound.sending.ring few
      (.send push.payload.length connected)
      fun request _ isComplete => by contradiction
  receiving := sound.receiving
  pushes := by
    have sameCalls :
        ∀ promise ∈ state.sent,
          (state.calls ++ [push])[promise]? = state.calls[promise]? := by
      intro promise isSent
      have old :=
        sound.ordered.old promise (sound.ordered.first.subset isSent)
      rw [← sound.sending.calls] at old
      exact List.getElem?_append_left old
    simp only [next]
    rw [List.map_congr_left sameCalls]
    exact sound.pushes

theorem Sound.of_sendStep
    {after : Link}
    {event : RingEvent}
    (step : SendStep msgBytes event state after)
    (sending : after.SendSound msgBytes)
    (ordered : after.Ordered)
    (reported :
      ∀ request wrId,
        event = .complete request true →
        state.ring.posted[request]? = some wrId →
        after.ring = state.ring.next msgBytes event →
        ∀ promise,
          state.ring.conn.pending.lookup wrId = some promise →
          promise ∈ state.sent) :
    after.Sound msgBytes := by
  refine ⟨sending, ordered, ?_, ?_, ?_⟩
  · rw [step.sent]
    rcases step.ring with same | isNext
    · rw [same]
      exact sound.successes
    · have successes :=
        sound.successes.next msgBytes sound.sending.ring few event
          fun request wrId isComplete here =>
            reported request wrId isComplete here isNext
      rw [isNext]
      exact successes
  · rw [step.receiver]
    exact sound.receiving
  · rw [step.receiver, step.sent, step.calls]
    exact sound.pushes

theorem Sound.post
    (call : Nat)
    (accepted : Bool) :
    Sound msgBytes (state.post msgBytes call accepted) :=
  sound.of_sendStep few (state.sendStep_post msgBytes call accepted)
    (sound.sending.post few call accepted)
    (sound.ordered.post sound.sending few call accepted)
    fun _ _ isComplete => by contradiction

theorem Sound.complete
    (request : Nat)
    (ok : Bool) :
    Sound msgBytes (state.complete msgBytes request ok) := by
  refine sound.of_sendStep few (state.sendStep_complete msgBytes request ok)
    (sound.sending.complete few request ok)
    (sound.ordered.complete sound.sending.ring few request ok) ?_
  intro other wrId isComplete here isNext promise present
  cases isComplete
  by_cases onWire : wrId ∈ state.onWire.map HeldBuffer.wrId
  · obtain ⟨held, isHeld, isId⟩ := List.mem_map.1 onWire
    have inTable :=
      (sound.sending.known held (List.mem_append_right _ isHeld)).2
    rw [← isId, inTable.1] at present
    cases present
    exact sound.sending.onWire held isHeld
  · -- the device does not report success, so the ring took no step
    exfalso
    simp only [Link.complete, here, if_true, onWire, if_false,
      RingThreads.next, RingThreads.complete] at isNext
    have shorter := congrArg (fun ring => ring.posted.length) isNext
    have inRange := (List.getElem?_eq_some_iff.1 here).1
    simp only [List.length_eraseIdx, inRange, if_true] at shorter
    omega

theorem Sound.next
    (small : msgCap msgBytes < 2 ^ 32)
    (event : LinkEvent) :
    Sound msgBytes (state.next msgBytes event) := by
  cases event with
  | send push connected =>
      exact sound.send few push connected
  | fill call =>
      exact sound.fill call
  | post call accepted =>
      exact sound.post few call accepted
  | transmit =>
      exact sound.transmit small
  | complete request ok =>
      exact sound.complete few request ok
  | tryAcquire | putBack | poll | handleCompletion | notify =>
      exact sound.of_quiet few rfl (by simp) (by simp)
  | pollRecv count =>
      exact sound.of_conserves
        (ReceiveRing.poll_conserves sound.receiving count)
  | handleRecv =>
      exact sound.of_conserves (ReceiveRing.handle_conserves sound.receiving)
  | postRecv accepted =>
      exact sound.of_conserves
        (ReceiveRing.postRecv_conserves sound.receiving accepted)
  | flushRecv =>
      exact sound.of_conserves (ReceiveRing.flush_conserves sound.receiving)

end Steps

/-- Every Send is a call, and nothing else is. -/
theorem length_calls_next
    (msgBytes : Nat)
    (state : Link)
    (event : LinkEvent) :
    (state.next msgBytes event).calls.length =
      state.calls.length + if event.isSend then 1 else 0 := by
  cases event <;>
    simp only [next, fill, post, transmit, complete, breakDown,
      LinkEvent.isSend] <;>
    grind

theorem run_sound
    {sendBytes : Nat}
    (small : msgCap sendBytes < 2 ^ 32)
    (recvBytes : Nat)
    (accepted : Nat → Bool)
    (events : List LinkEvent)
    (few : events.countP LinkEvent.isSend < 2 ^ 48) :
    (run sendBytes recvBytes accepted events).Sound sendBytes ∧
      (run sendBytes recvBytes accepted events).calls.length =
        events.countP LinkEvent.isSend := by
  induction events using List.reverseRecOn with
  | nil =>
      exact ⟨start_sound sendBytes recvBytes accepted, rfl⟩
  | append_singleton events event inductionHypothesis =>
      rw [List.countP_append, List.countP_singleton] at few ⊢
      obtain ⟨sound, counted⟩ := inductionHypothesis (by omega)
      have started := sound.sending.calls
      unfold run at sound started counted ⊢
      rw [List.foldl_append, List.foldl_cons, List.foldl_nil]
      refine ⟨sound.next (by omega) small event, ?_⟩
      rw [length_calls_next, counted]

/--
What the receiver hands on are the pushes of the transmitted requests in their
order, and all of them once it has handled what it got.  Requests are
transmitted in the order of their posts, each once.  A promise that is set to
success is of a transmitted request.  While no buffer of the receiver is lost,
one is posted or its poller has work.
-/
structure Delivers
    (state : Link) :
    Prop where
  inOrder :
    state.receiver.delivered.map some <+:
      state.sent.map fun promise => state.calls[promise]?
  whole :
    state.receiver.completed = [] →
    state.receiver.batch = [] →
    state.receiver.delivered.map some =
      state.sent.map fun promise => state.calls[promise]?
  asPosted : state.sent <+: state.posted
  once : state.posted.Nodup
  acknowledged :
    ∀ promise, (promise, true) ∈ state.ring.settled → promise ∈ state.sent
  ready :
    state.receiver.lost = [] →
    state.receiver.posted = [] →
    state.receiver.completed ≠ [] ∨
      state.receiver.batch ≠ [] ∨ state.receiver.recycling ≠ none

/--
Over one connection, with fewer sends than numbers for them and messages whose
length fits its field, pushes are delivered intact, in order and at most once.
-/
theorem connection_delivers
    {sendBytes : Nat}
    (small : msgCap sendBytes < 2 ^ 32)
    (recvBytes : Nat)
    (accepted : Nat → Bool)
    (events : List LinkEvent)
    (few : events.countP LinkEvent.isSend < 2 ^ 48) :
    (run sendBytes recvBytes accepted events).Delivers := by
  obtain ⟨sound, _⟩ := run_sound small recvBytes accepted events few
  have pushes := sound.pushes
  rw [List.map_append] at pushes
  refine ⟨⟨_, pushes⟩, ?_, sound.ordered.first, sound.ordered.once,
    sound.successes.settled, sound.receiving.ready⟩
  intro noneCompleted noBatch
  rw [← pushes]
  simp [ReceiveRing.inbox, noneCompleted, noBatch]

/-- One push on its way, up to the poller of the receiver. -/
def onePush : List LinkEvent :=
  [ .send ⟨⟨.fill 5, 1, 2, 3⟩, [7, 8], .replicationPush⟩ true,
    .tryAcquire 0, .fill 0, .post 0 true, .transmit, .complete 0 true,
    .poll 1, .handleCompletion, .notify, .pollRecv 1, .handleRecv ]

/-- The push is handed on, and its Send has succeeded. -/
theorem connection_delivers_one :
    (run 4 4 (fun _ => true) onePush).receiver.delivered =
        [⟨⟨.fill 5, 1, 2, 3⟩, [7, 8], .replicationPush⟩] ∧
      (run 4 4 (fun _ => true) onePush).ring.settled = [(0, true)] ∧
      (run 4 4 (fun _ => true) onePush).Delivers :=
  ⟨by decide +kernel, by decide +kernel,
    connection_delivers (by decide) 4 (fun _ => true) onePush (by decide)⟩

/-! ## A broken connection -/

/-- A broken connection stays so and transmits nothing. -/
theorem broken_foldl
    (msgBytes : Nat)
    {state : Link}
    (isBroken : state.broken = true)
    (quiet : state.unsent = [])
    (later : List LinkEvent) :
    (later.foldl (next msgBytes) state).sent = state.sent := by
  induction later generalizing state with
  | nil =>
      rfl
  | cons event later inductionHypothesis =>
      have step :
          (state.next msgBytes event).broken = true ∧
            (state.next msgBytes event).unsent = [] ∧
            (state.next msgBytes event).sent = state.sent := by
        cases event <;>
          simp only [next, fill, post, transmit, complete, breakDown] <;>
          grind
      rw [List.foldl_cons, inductionHypothesis step.1 step.2.1, step.2.2]

/-- After a connection has broken no Send that starts later on it succeeds. -/
theorem no_success_after_break
    {sendBytes : Nat}
    (small : msgCap sendBytes < 2 ^ 32)
    (recvBytes : Nat)
    (accepted : Nat → Bool)
    (events later : List LinkEvent)
    (few : (events ++ later).countP LinkEvent.isSend < 2 ^ 48)
    (isBroken : (run sendBytes recvBytes accepted events).broken = true) :
    ∀ promise,
      (promise, true) ∈
          (run sendBytes recvBytes accepted (events ++ later)).ring.settled →
        promise < events.countP LinkEvent.isSend := by
  intro promise succeeded
  obtain ⟨sound, _⟩ := run_sound small recvBytes accepted _ few
  rw [List.countP_append] at few
  obtain ⟨before, counted⟩ :=
    run_sound small recvBytes accepted events (by omega)
  have isSent := sound.successes.settled promise succeeded
  have same :=
    broken_foldl sendBytes isBroken (before.ordered.quiet isBroken) later
  unfold run at isSent same
  rw [List.foldl_append, same] at isSent
  rw [← counted, before.sending.calls]
  exact before.ordered.old promise (before.ordered.first.subset isSent)

/-- A request that fails. -/
def failedPush : List LinkEvent :=
  onePush.take 4 ++ [.complete 0 false]

theorem no_success_after_break_next_push :
    (run 4 4 (fun _ => true) failedPush).broken = true ∧
      ∀ promise,
        (promise, true) ∈
            (run 4 4 (fun _ => true)
              (failedPush ++ onePush)).ring.settled →
          promise < 1 :=
  ⟨by decide +kernel,
    no_success_after_break (by decide) 4 (fun _ => true) failedPush onePush
      (by decide) (by decide +kernel)⟩

end Link

end Rdma

end Lethe
