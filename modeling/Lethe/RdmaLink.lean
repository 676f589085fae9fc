import Lethe.RdmaReceiveRing

namespace Lethe

/-!
# A push over an RDMA connection

Both ends of one connection with the device between them.  Sends take buffers
of the send ring, write their message there and post a work request.  The
device transmits the posted requests in order, each into the buffer that the
receiver posted first, and waits while there is none.  Completions may come in
any order.

What is assumed of the device is what reliable connections guarantee: it reads
a buffer between post and completion, it reports success only for requests
that it has transmitted, and after an error it transmits no more.  The receives
of the other end may be flushed at any time.
-/

namespace Rdma

open ByteMemory

/-- A posted send: who posted it, and the bytes of the message. -/
structure WorkRequest where
  held : HeldBuffer
  length : UInt32
  deriving DecidableEq, Repr

/--
The two ends.  `calls` are the arguments of the Sends by their promises,
`filled` the Sends that have written their buffer.  The device has `unsent`
requests in the order of their posts and has transmitted those `onWire`.
`posted` and `sent` log the promises of all posted and transmitted requests.
-/
structure Link where
  ring : RingThreads := {}
  sendBufs : List RegBuf
  calls : List ReceivedPush := []
  filled : List HeldBuffer := []
  unsent : List WorkRequest := []
  onWire : List HeldBuffer := []
  broken : Bool := false
  receiver : ReceiveRing
  posted : List Nat := []
  sent : List Nat := []

/-- One step of a Send, of the device, or of one of the two pollers. -/
inductive LinkEvent where
  | send (push : ReceivedPush) (connected : Bool)
  | tryAcquire (call : Nat)
  | fill (call : Nat)
  | post (call : Nat) (accepted : Bool)
  | putBack (call : Nat)
  | transmit
  | complete (request : Nat) (ok : Bool)
  | poll (count : Nat)
  | handleCompletion
  | notify
  | pollRecv (count : Nat)
  | handleRecv
  | postRecv (accepted : Bool)
  | flushRecv

/-- Whether the step starts a Send. -/
def LinkEvent.isSend : LinkEvent → Bool
  | .send _ _ => true
  | _ => false

/-- Write the header and the payload of a push into a buffer. -/
def fillBuffer
    (buffer : RegBuf)
    (push : ReceivedPush) :
    RegBuf :=
  { buffer with
    mem :=
      run buffer.mem
        (storesOf (messageFields push.id push.purpose push.payload)) }

namespace Link

/-- The buffer of a call is written once, before its request is posted. -/
def fill
    (state : Link)
    (call : Nat) :
    Link :=
  match state.ring.posting[call]? with
  | none => state
  | some held =>
      if held ∈ state.filled then
        state
      else
        match state.calls[held.promise]?, state.sendBufs[held.bufIdx]? with
        | some push, some buffer =>
            { state with
              sendBufs :=
                state.sendBufs.set held.bufIdx (fillBuffer buffer push)
              filled := held :: state.filled }
        | _, _ => state

/-- A call posts its request once its buffer is written. -/
def post
    (msgBytes : Nat)
    (state : Link)
    (call : Nat)
    (accepted : Bool) :
    Link :=
  match state.ring.posting[call]? with
  | none => state
  | some held =>
      match state.calls[held.promise]? with
      | none => state
      | some push =>
          if held ∈ state.filled then
            { state with
              ring := state.ring.next msgBytes (.post call accepted)
              filled := state.filled.erase held
              unsent :=
                if accepted = true ∧ state.broken = false then
                  state.unsent ++
                    [⟨held,
                      UInt32.ofNat (headerBytes + push.payload.length)⟩]
                else
                  state.unsent
              posted :=
                if accepted then
                  state.posted ++ [held.promise]
                else
                  state.posted }
          else
            state

/-- The connection breaks. -/
def breakDown
    (state : Link) :
    Link :=
  { state with unsent := [], broken := true }

/-- The device transmits the oldest request if the receiver is ready. -/
def transmit
    (state : Link) :
    Link :=
  match state.unsent with
  | [] => state
  | request :: rest =>
      match state.sendBufs[request.held.bufIdx]? with
      | none => state
      | some buffer =>
          match
            state.receiver.arrive
              (load buffer.mem 0 request.length.toNat) with
          | .notReady => state
          | .tooLong => state.breakDown
          | .received receiver =>
              { state with
                unsent := rest
                onWire := state.onWire ++ [request.held]
                receiver := receiver
                sent := state.sent ++ [request.held.promise] }

/-- The device reports a request, with success only after it was transmitted. -/
def complete
    (msgBytes : Nat)
    (state : Link)
    (request : Nat)
    (ok : Bool) :
    Link :=
  match state.ring.posted[request]? with
  | none => state
  | some wrId =>
      if ok then
        if wrId ∈ state.onWire.map HeldBuffer.wrId then
          { state with
            ring := state.ring.next msgBytes (.complete request true)
            onWire := state.onWire.filter fun held => held.wrId ≠ wrId }
        else
          state
      else
        { state with
          ring := state.ring.next msgBytes (.complete request false)
          onWire :=
            state.onWire.filter fun held => held.wrId ≠ wrId }.breakDown

/-- The effect of a step. -/
def next
    (msgBytes : Nat)
    (state : Link) :
    LinkEvent → Link
  | .send push connected =>
      { state with
        ring := state.ring.next msgBytes (.send push.payload.length connected)
        calls := state.calls ++ [push] }
  | .tryAcquire call =>
      { state with ring := state.ring.next msgBytes (.tryAcquire call) }
  | .fill call => state.fill call
  | .post call accepted => state.post msgBytes call accepted
  | .putBack call =>
      { state with ring := state.ring.next msgBytes (.putBack call) }
  | .transmit => state.transmit
  | .complete request ok => state.complete msgBytes request ok
  | .poll count =>
      { state with ring := state.ring.next msgBytes (.poll count) }
  | .handleCompletion =>
      { state with ring := state.ring.next msgBytes .handleCompletion }
  | .notify =>
      { state with ring := state.ring.next msgBytes .notify }
  | .pollRecv count =>
      { state with receiver := state.receiver.poll count }
  | .handleRecv =>
      { state with receiver := state.receiver.handle }
  | .postRecv accepted =>
      { state with receiver := state.receiver.postRecv accepted }
  | .flushRecv =>
      { state with receiver := state.receiver.flush }

/-- A new connection; the ends may have buffers of different sizes. -/
def start
    (sendBytes recvBytes : Nat)
    (accepted : Nat → Bool) :
    Link where
  sendBufs := List.replicate maxSendBuffers (makeBuf sendBytes)
  receiver := ReceiveRing.setupInbound recvBytes accepted

/-- The state after some steps. -/
def run
    (sendBytes recvBytes : Nat)
    (accepted : Nat → Bool)
    (events : List LinkEvent) :
    Link :=
  events.foldl (next sendBytes) (start sendBytes recvBytes accepted)

end Link

/-! ## What a step of the send ring leaves alone -/

namespace RingThreads

/-- The table and the buffer of a request agree. -/
def InTable
    (ring : RingThreads)
    (held : HeldBuffer) :
    Prop :=
  ring.conn.pending.lookup held.wrId = some held.promise ∧
    bufIdxOf held.wrId = held.bufIdx

/-- Promises of the calls that have still to post. -/
def unposted
    (ring : RingThreads) :
    List Nat :=
  ring.acquiring.map Acquiring.promise ++
    ring.posting.map HeldBuffer.promise

variable (msgBytes : Nat) {ring : RingThreads} {event : RingEvent}
  {held : HeldBuffer} {wrId : UInt64}

/-- Posted requests are among all requests. -/
theorem mem_requests_of_posted
    (isPosted : wrId ∈ ring.posted) :
    wrId ∈ ring.requests := by
  unfold requests
  exact List.mem_append_right _
    (List.mem_append_right _ (List.mem_append_left _ isPosted))

/-- Calls that are about to post are among all requests. -/
theorem mem_requests_of_posting
    (isPosting : held ∈ ring.posting) :
    held.wrId ∈ ring.requests := by
  unfold requests
  exact List.mem_append_left _ (List.mem_map_of_mem isPosting)

/-- Only a post removes a call that is about to post. -/
theorem posting_next
    (notPost : ∀ call accepted, event ≠ .post call accepted)
    (isPosting : held ∈ ring.posting) :
    held ∈ (ring.next msgBytes event).posting := by
  cases event <;>
    simp only [next, send, tryAcquire, putBack, complete, poll,
      handleCompletion, notify] <;>
    grind

/-- Only a completion removes a posted request. -/
theorem posted_next
    (isPosted : wrId ∈ ring.posted)
    (notCompleted :
      ∀ request ok,
        event = .complete request ok → ring.posted[request]? ≠ some wrId) :
    wrId ∈ (ring.next msgBytes event).posted := by
  cases event with
  | complete request ok =>
      simp only [next, complete]
      split
      next =>
        exact isPosted
      next other here =>
        have parts := perm_cons_eraseIdx here
        have different := notCompleted request ok rfl
        rw [here] at different
        exact (List.mem_cons.1 (parts.subset isPosted)).resolve_left
          fun same => different (by rw [same])
  | _ =>
      simp only [next, send, tryAcquire, post, putBack, poll,
        handleCompletion, notify]
      grind

/-- What a post does. -/
structure Posted
    (before after : RingThreads)
    (held : HeldBuffer)
    (accepted : Bool) :
    Prop where
  acquiring : after.acquiring = before.acquiring
  posting :
    ∀ other, other ∈ after.posting ↔ other ∈ before.posting ∧ other ≠ held
  posted :
    after.posted =
      if accepted then before.posted ++ [held.wrId] else before.posted

section Sound

variable (sound : ring.Sound)

include sound

/-- A call that is about to post is in the table. -/
theorem Sound.inTable
    (isPosting : held ∈ ring.posting) :
    ring.InTable held :=
  sound.owned held (List.mem_append_left _ isPosting)

/-- The calls that are about to post have different numbers. -/
theorem Sound.posting_nodup :
    (ring.posting.map HeldBuffer.wrId).Nodup :=
  (List.nodup_append.1 (exclusiveBuffers_of_sound sound).ownWrId).1

/-- Two calls that are about to post have different promises. -/
theorem Sound.promise_inj
    {left right : HeldBuffer}
    (isLeft : left ∈ ring.posting)
    (isRight : right ∈ ring.posting)
    (same : left.promise = right.promise) :
    left = right := by
  have promisesOnce : ring.promises.Nodup :=
    sound.promises.nodup_iff.2 List.nodup_range
  have entriesOnce :
      (ring.conn.pending.entries.map Sigma.snd).Nodup := by
    unfold RingThreads.promises at promisesOnce
    exact (List.nodup_append.1 (List.nodup_append.1 promisesOnce).2.1).1
  have sameEntry :=
    List.inj_on_of_nodup_map entriesOnce
      (AList.mem_lookup_iff.1 (sound.inTable isLeft).1)
      (AList.mem_lookup_iff.1 (sound.inTable isRight).1) same
  exact List.inj_on_of_nodup_map sound.posting_nodup isLeft isRight
    (congrArg Sigma.fst sameEntry)

/-- A call that is about to post has not posted. -/
theorem Sound.notMem_posted
    (isPosting : held ∈ ring.posting) :
    held.wrId ∉ ring.posted := by
  intro isPosted
  have once := (exclusiveBuffers_of_sound sound).ownWrId
  refine (List.nodup_append.1 once).2.2 held.wrId
    (List.mem_map_of_mem isPosting) held.wrId ?_ rfl
  exact List.mem_append_right _ (List.mem_append_left _ isPosted)

/-- Requests with one buffer are one request. -/
theorem Sound.wrId_eq
    {left right : UInt64}
    (isLeft : left ∈ ring.requests)
    (isRight : right ∈ ring.requests)
    (same : bufIdxOf left = bufIdxOf right) :
    left = right :=
  List.inj_on_of_nodup_map (exclusiveBuffers_of_sound sound).ownBuffer isLeft
    isRight same

/-- Calls that are about to post have buffers of their own. -/
theorem Sound.posting_eq
    {left right : HeldBuffer}
    (isLeft : left ∈ ring.posting)
    (isRight : right ∈ ring.posting)
    (same : left.bufIdx = right.bufIdx) :
    left = right := by
  have sameId :=
    sound.wrId_eq (mem_requests_of_posting isLeft)
      (mem_requests_of_posting isRight)
      (by rw [(sound.inTable isLeft).2, (sound.inTable isRight).2, same])
  exact List.inj_on_of_nodup_map sound.posting_nodup isLeft isRight sameId

theorem posted_of_post
    {call : Nat}
    (here : ring.posting[call]? = some held)
    (accepted : Bool) :
    Posted ring (ring.next msgBytes (.post call accepted)) held accepted := by
  have parts := perm_cons_eraseIdx here
  have shared :=
    parts.nodup_iff.1 (List.Nodup.of_map _ sound.posting_nodup)
  have moved :
      ∀ other,
        other ∈ ring.posting.eraseIdx call ↔
          other ∈ ring.posting ∧ other ≠ held := by
    intro other
    have members := parts.mem_iff (a := other)
    grind
  simp only [next, post, here]
  cases accepted with
  | _ =>
      exact ⟨rfl, moved, rfl⟩

variable (few : ring.started < 2 ^ 48)

include few

/-- A step adds an entry to the table, removes one, or leaves it alone. -/
theorem pending_next
    (event : RingEvent) :
    (ring.next msgBytes event).conn.pending = ring.conn.pending ∨
      (∃ held : HeldBuffer,
        held.wrId ∉ ring.conn.pending ∧
          (ring.next msgBytes event).conn.pending =
            ring.conn.pending.insert held.wrId held.promise) ∨
      ∃ wrId,
        (ring.next msgBytes event).conn.pending =
          ring.conn.pending.erase wrId := by
  cases event with
  | tryAcquire call =>
      simp only [next, tryAcquire]
      split
      next =>
        exact Or.inl rfl
      next waiting here =>
        have parts := (perm_cons_eraseIdx here).length_eq
        have counted := sound.counted
        rw [List.length_cons] at parts
        split
        next held conn taken =>
          have acquired :=
            Conn.acquired_of_acquire sound.conn (by omega) taken
          refine Or.inr (Or.inl ⟨held, acquired.fresh, ?_⟩)
          rw [acquired.ownPromise]
          exact acquired.pending
        next =>
          left
          split <;> rfl
  | _ =>
      simp only [next, send, post, putBack, complete, poll,
        handleCompletion, notify, Conn.release]
      grind

/-- A request that is still somewhere keeps its entry. -/
theorem InTable.next
    (event : RingEvent)
    (inTable : ring.InTable held)
    (still : held.wrId ∈ (ring.next msgBytes event).requests) :
    (ring.next msgBytes event).InTable held := by
  obtain ⟨present, buffer⟩ := inTable
  refine ⟨?_, buffer⟩
  rcases pending_next msgBytes sound few event with
    same | ⟨other, fresh, added⟩ | ⟨wrId, erased⟩
  · rw [same, present]
  · have known : held.wrId ∈ ring.conn.pending :=
      AList.lookup_isSome.1 (by rw [present]; rfl)
    have different : held.wrId ≠ other.wrId := by
      intro isOther
      rw [isOther] at known
      exact fresh known
    rw [added, AList.lookup_insert_ne different, present]
  · have kept : held.wrId ∈ ring.conn.pending.erase wrId := by
      have after := next_sound msgBytes event sound few
      rw [← erased]
      exact AList.mem_keys.2 (after.requests.subset still)
    rw [erased, AList.lookup_erase_ne (AList.mem_erase.1 kept).1, present]

/-- An old request has the entry that it had. -/
theorem lookup_of_next
    (event : RingEvent)
    (old : wrId ∈ ring.requests)
    {promise : Nat}
    (present :
      (ring.next msgBytes event).conn.pending.lookup wrId = some promise) :
    ring.conn.pending.lookup wrId = some promise := by
  rcases pending_next msgBytes sound few event with
    same | ⟨other, fresh, added⟩ | ⟨gone, erased⟩
  · rwa [same] at present
  · have known : wrId ∈ ring.conn.pending :=
      AList.mem_keys.2 (sound.requests.subset old)
    have different : wrId ≠ other.wrId := by
      intro isOther
      rw [isOther] at known
      exact fresh known
    rwa [added, AList.lookup_insert_ne different] at present
  · by_cases isGone : wrId = gone
    · rw [erased, isGone, AList.lookup_erase] at present
      contradiction
    · rwa [erased, AList.lookup_erase_ne isGone] at present

/-- The promises of calls that have still to post, after a step. -/
theorem unposted_next
    (event : RingEvent)
    {promise : Nat}
    (isUnposted : promise ∈ (ring.next msgBytes event).unposted) :
    promise ∈ ring.unposted ∨
      ∃ size connected,
        event = .send size connected ∧
          headerBytes + size ≤ msgCap msgBytes ∧
          promise = ring.started := by
  unfold unposted at isUnposted ⊢
  cases event with
  | tryAcquire call =>
      simp only [next, tryAcquire] at isUnposted
      split at isUnposted
      next =>
        exact Or.inl isUnposted
      next waiting here =>
        have parts := (perm_cons_eraseIdx here).length_eq
        have counted := sound.counted
        rw [List.length_cons] at parts
        split at isUnposted
        next held conn taken =>
          have ownPromise :=
            (Conn.acquired_of_acquire sound.conn (by omega) taken).ownPromise
          grind [List.mem_of_mem_eraseIdx]
        next =>
          grind [List.mem_of_mem_eraseIdx, List.mem_or_eq_of_mem_set]
  | _ =>
      simp only [next, send, post, putBack, complete, poll,
        handleCompletion, notify] at isUnposted
      grind [List.mem_of_mem_eraseIdx]

end Sound

end RingThreads

/-! ## The sending end -/

namespace Link

/-- The buffer of a call holds the message of its push. -/
structure Written
    (msgBytes : Nat)
    (calls : List ReceivedPush)
    (sendBufs : List RegBuf)
    (held : HeldBuffer)
    (push : ReceivedPush) :
    Prop where
  isCall : calls[held.promise]? = some push
  fits : headerBytes + push.payload.length ≤ msgCap msgBytes
  written :
    ∃ buffer, sendBufs[held.bufIdx]? = some (fillBuffer buffer push)

/-- The requests that the device knows. -/
def known
    (state : Link) :
    List HeldBuffer :=
  state.unsent.map WorkRequest.held ++ state.onWire

/--
The sending end is in order: calls that have still to post are small enough,
written buffers hold their messages until the device has transmitted them, and
the device knows only requests that are posted.
-/
structure SendSound
    (msgBytes : Nat)
    (state : Link) :
    Prop where
  ring : state.ring.Sound
  calls : state.calls.length = state.ring.started
  fits :
    ∀ promise ∈ state.ring.unposted,
      ∃ push,
        state.calls[promise]? = some push ∧
          headerBytes + push.payload.length ≤ msgCap msgBytes
  filled :
    ∀ held ∈ state.filled,
      held ∈ state.ring.posting ∧
        ∃ push, Written msgBytes state.calls state.sendBufs held push
  filledOnce : state.filled.Nodup
  known :
    ∀ held ∈ state.known,
      held.wrId ∈ state.ring.posted ∧ state.ring.InTable held
  unsent :
    ∀ request ∈ state.unsent,
      ∃ push,
        Written msgBytes state.calls state.sendBufs request.held push ∧
          request.length =
            UInt32.ofNat (headerBytes + push.payload.length)
  onWire : ∀ held ∈ state.onWire, held.promise ∈ state.sent
  apart : (state.known.map HeldBuffer.wrId).Nodup

/-- What a transmission is: the message reached the receiver, or nothing did. -/
inductive Transmission
    (state : Link) :
    Link → Prop where
  | waits :
      Transmission state state
  | breaks :
      Transmission state state.breakDown
  | arrives
      (request : WorkRequest)
      (rest : List WorkRequest)
      (buffer : RegBuf)
      (receiver : ReceiveRing)
      (oldest : state.unsent = request :: rest)
      (isBuffer : state.sendBufs[request.held.bufIdx]? = some buffer)
      (received :
        state.receiver.arrive (load buffer.mem 0 request.length.toNat) =
          .received receiver) :
      Transmission state
        { state with
          unsent := rest
          onWire := state.onWire ++ [request.held]
          receiver := receiver
          sent := state.sent ++ [request.held.promise] }

theorem transmission
    (state : Link) :
    Transmission state state.transmit := by
  unfold transmit
  split
  next =>
    exact .waits
  next request rest oldest =>
    split
    next =>
      exact .waits
    next buffer isBuffer =>
      split
      next =>
        exact .waits
      next =>
        exact .breaks
      next receiver received =>
        exact .arrives request rest buffer receiver oldest isBuffer received

section Writing

variable {msgBytes : Nat} {calls : List ReceivedPush}
  {sendBufs : List RegBuf} {held : HeldBuffer} {push : ReceivedPush}

/-- The call of an old promise stays when a Send starts. -/
theorem getElem?_calls_append
    {promise : Nat}
    (isCall : calls[promise]? = some push)
    (new : ReceivedPush) :
    (calls ++ [new])[promise]? = some push := by
  have old := (List.getElem?_eq_some_iff.1 isCall).1
  rw [List.getElem?_append_left old]
  exact isCall

theorem Written.append
    (before : Written msgBytes calls sendBufs held push)
    (new : ReceivedPush) :
    Written msgBytes (calls ++ [new]) sendBufs held push :=
  { before with isCall := getElem?_calls_append before.isCall new }

theorem Written.set
    (before : Written msgBytes calls sendBufs held push)
    {bufIdx : Nat}
    (apart : held.bufIdx ≠ bufIdx)
    (buffer : RegBuf) :
    Written msgBytes calls (sendBufs.set bufIdx buffer) held push :=
  { before with
    written := by
      obtain ⟨old, isOld⟩ := before.written
      exact ⟨old, by rw [List.getElem?_set_ne (Ne.symm apart), isOld]⟩ }

end Writing

section Steps

variable {msgBytes : Nat} {state : Link}
  (sound : state.SendSound msgBytes)

include sound

theorem SendSound.fill
    (call : Nat) :
    SendSound msgBytes (state.fill call) := by
  unfold Link.fill
  split
  next =>
    exact sound
  next held here =>
    have isPosting := List.mem_of_getElem? here
    split
    next =>
      exact sound
    next notFilled =>
      split
      next push buffer isCall isBuffer =>
        have inRange := (List.getElem?_eq_some_iff.1 isBuffer).1
        refine
          { sound with
            filled := ?_
            filledOnce := List.nodup_cons.2 ⟨notFilled, sound.filledOnce⟩
            unsent := ?_ }
        · intro other isFilled
          rcases List.mem_cons.1 isFilled with isHeld | old
          · subst isHeld
            obtain ⟨same, isSame, small⟩ :=
              sound.fits other.promise
                (List.mem_append_right _ (List.mem_map_of_mem isPosting))
            rw [isCall] at isSame
            cases isSame
            exact ⟨isPosting, push, isCall, small, buffer,
              List.getElem?_set_self inRange⟩
          · obtain ⟨otherPosting, otherPush, before⟩ :=
              sound.filled other old
            refine ⟨otherPosting, otherPush, before.set ?_ _⟩
            intro same
            rw [sound.ring.posting_eq otherPosting isPosting same] at old
            exact notFilled old
        · intro request isUnsent
          obtain ⟨otherPush, before, length⟩ := sound.unsent request isUnsent
          obtain ⟨isPosted, inTable⟩ :=
            sound.known request.held
              (List.mem_append_left _ (List.mem_map_of_mem isUnsent))
          refine ⟨otherPush, before.set ?_ _, length⟩
          intro same
          have buffer := (sound.ring.inTable isPosting).2
          have sameId :=
            sound.ring.wrId_eq
              (RingThreads.mem_requests_of_posted isPosted)
              (RingThreads.mem_requests_of_posting isPosting)
              (by rw [inTable.2, buffer, same])
          rw [sameId] at isPosted
          exact sound.ring.notMem_posted isPosting isPosted
      next =>
        exact sound

theorem SendSound.breakDown :
    SendSound msgBytes state.breakDown :=
  { sound with
    known := fun held isKnown =>
      sound.known held (List.mem_append_right _ isKnown)
    unsent := fun _ isUnsent => (List.not_mem_nil isUnsent).elim
    apart := by
      have apart := sound.apart
      rw [Link.known, List.map_append] at apart
      exact (List.nodup_append.1 apart).2.1 }

theorem SendSound.transmit :
    SendSound msgBytes state.transmit := by
  have transmitted := state.transmission
  revert transmitted
  generalize state.transmit = after
  intro transmitted
  cases transmitted with
  | waits =>
      exact sound
  | breaks =>
      exact sound.breakDown
  | arrives request rest buffer receiver oldest isBuffer received =>
      have same :
          (rest.map WorkRequest.held ++
            (state.onWire ++ [request.held])).Perm state.known := by
        simp only [Link.known, oldest, List.map_cons, List.cons_append]
        rw [← List.append_assoc]
        exact List.perm_append_singleton _ _
      refine
        { sound with
          known := fun held isKnown =>
            sound.known held (same.subset isKnown)
          unsent := ?_
          onWire := ?_
          apart := (same.map _).nodup_iff.2 sound.apart }
      · intro other isOther
        refine sound.unsent other ?_
        rw [oldest]
        exact List.mem_cons_of_mem _ isOther
      · intro held isOnWire
        rcases List.mem_append.1 isOnWire with old | isNew
        · exact List.mem_append_left _ (sound.onWire held old)
        · rw [List.mem_singleton.1 isNew]
          exact List.mem_append_right _ (List.mem_singleton.2 rfl)

variable (few : state.ring.started < 2 ^ 48)

include few

/-- A step of the ring that starts no Send and leaves what is known. -/
theorem SendSound.of_ring
    {event : RingEvent}
    (notSend : event.isSend = false)
    (posting :
      ∀ held ∈ state.filled,
        held ∈ (state.ring.next msgBytes event).posting)
    (posted :
      ∀ held ∈ state.known,
        held.wrId ∈ (state.ring.next msgBytes event).posted) :
    SendSound msgBytes
      { state with ring := state.ring.next msgBytes event } :=
  { sound with
    ring := RingThreads.next_sound msgBytes event sound.ring few
    calls := by
      rw [RingThreads.started_next, notSend]
      exact sound.calls
    fits := fun promise isUnposted => by
      rcases RingThreads.unposted_next msgBytes sound.ring few event
        isUnposted with old | ⟨size, connected, isSend, _⟩
      · exact sound.fits promise old
      · rw [isSend] at notSend
        contradiction
    filled := fun held isFilled =>
      ⟨posting held isFilled, (sound.filled held isFilled).2⟩
    known := fun held isKnown =>
      ⟨posted held isKnown,
        (sound.known held isKnown).2.next msgBytes sound.ring few event
          (RingThreads.mem_requests_of_posted (posted held isKnown))⟩ }

/-- A step of the ring that neither starts, posts nor completes anything. -/
theorem SendSound.of_quiet
    {event : RingEvent}
    (notSend : event.isSend = false)
    (notPost : ∀ call accepted, event ≠ .post call accepted)
    (notComplete : ∀ request ok, event ≠ .complete request ok) :
    SendSound msgBytes
      { state with ring := state.ring.next msgBytes event } :=
  sound.of_ring few notSend
    (fun held isFilled =>
      RingThreads.posting_next msgBytes notPost
        (sound.filled held isFilled).1)
    fun held isKnown =>
      RingThreads.posted_next msgBytes (sound.known held isKnown).1
        fun request ok isComplete => (notComplete request ok isComplete).elim

theorem SendSound.send
    (push : ReceivedPush)
    (connected : Bool) :
    SendSound msgBytes (state.next msgBytes (.send push connected)) := by
  have posted :
      ∀ held ∈ state.known,
        held.wrId ∈
          (state.ring.next msgBytes
            (.send push.payload.length connected)).posted :=
    fun held isKnown =>
      RingThreads.posted_next msgBytes (sound.known held isKnown).1
        fun _ _ isComplete => by contradiction
  refine
    { sound with
      ring :=
        RingThreads.next_sound msgBytes
          (.send push.payload.length connected) sound.ring few
      calls := ?_
      fits := ?_
      filled := ?_
      known := ?_
      unsent := ?_ }
  · simp only [next, List.length_append, List.length_singleton]
    rw [RingThreads.started_next, sound.calls]
    rfl
  · intro promise isUnposted
    simp only [next] at isUnposted ⊢
    rcases RingThreads.unposted_next msgBytes sound.ring few _ isUnposted with
      old | ⟨size, _, isSend, small, isNew⟩
    · obtain ⟨call, isCall, callFits⟩ := sound.fits promise old
      exact ⟨call, getElem?_calls_append isCall push, callFits⟩
    · cases isSend
      refine ⟨push, ?_, small⟩
      rw [isNew, ← sound.calls]
      exact List.getElem?_concat_length
  · intro held isFilled
    obtain ⟨isPosting, other, written⟩ := sound.filled held isFilled
    refine ⟨?_, other, written.append push⟩
    exact RingThreads.posting_next msgBytes (by simp) isPosting
  · intro held isKnown
    exact ⟨posted held isKnown,
      (sound.known held isKnown).2.next msgBytes sound.ring few _
        (RingThreads.mem_requests_of_posted (posted held isKnown))⟩
  · intro request isUnsent
    obtain ⟨other, written, length⟩ := sound.unsent request isUnsent
    exact ⟨other, written.append push, length⟩

theorem SendSound.post
    (call : Nat)
    (accepted : Bool) :
    SendSound msgBytes (state.post msgBytes call accepted) := by
  unfold Link.post
  split
  next =>
    exact sound
  next held here =>
    split
    next =>
      exact sound
    next push isCall =>
      split
      next isFilled =>
        have isPosting := List.mem_of_getElem? here
        have effect :=
          RingThreads.posted_of_post msgBytes sound.ring here accepted
        -- the call leaves the list of written buffers, then it posts
        have waiting :
            SendSound msgBytes
              { state with filled := state.filled.erase held } :=
          { sound with
            filled := fun other isOther =>
              sound.filled other (List.mem_of_mem_erase isOther)
            filledOnce := sound.filledOnce.erase held }
        have posted :=
          waiting.of_ring few rfl
            (fun other isOther => by
              obtain ⟨different, old⟩ :=
                sound.filledOnce.mem_erase_iff.1 isOther
              exact (effect.posting other).2
                ⟨(sound.filled other old).1, different⟩)
            (fun other isKnown =>
              RingThreads.posted_next msgBytes (sound.known other isKnown).1
                fun _ _ isComplete => by contradiction)
        by_cases goesOut : accepted = true ∧ state.broken = false
        · simp only [goesOut, and_self, if_true] at posted ⊢
          obtain ⟨_, same, written⟩ := sound.filled held isFilled
          have sameCall := written.isCall
          rw [isCall] at sameCall
          cases sameCall
          have isPosted :
              held.wrId ∈
                (state.ring.next msgBytes (.post call true)).posted := by
            rw [← goesOut.1, effect.posted, if_pos goesOut.1]
            exact List.mem_append_right _ (List.mem_singleton.2 rfl)
          have inTable :=
            RingThreads.InTable.next msgBytes sound.ring few
              (.post call true)
              (sound.ring.inTable isPosting)
              (RingThreads.mem_requests_of_posted isPosted)
          refine
            { posted with
              known := ?_
              unsent := ?_
              apart := ?_ }
          · intro other isKnown
            simp only [Link.known, List.map_append, List.map_singleton,
              List.append_assoc, List.singleton_append] at isKnown
            rcases List.mem_cons.1 (List.perm_middle.subset isKnown) with
              isHeld | old
            · rw [isHeld]
              exact ⟨isPosted, inTable⟩
            · exact posted.known other old
          · intro request isUnsent
            rcases List.mem_append.1 isUnsent with old | isNew
            · exact sound.unsent request old
            · rw [List.mem_singleton.1 isNew]
              exact ⟨push, written, rfl⟩
          · have apart := sound.apart
            simp only [Link.known, List.map_append, List.map_singleton,
              List.append_assoc, List.singleton_append] at apart ⊢
            refine List.perm_middle.nodup_iff.2
              (List.nodup_cons.2 ⟨?_, apart⟩)
            rw [← List.map_append]
            intro isKnown
            obtain ⟨other, isOther, sameId⟩ := List.mem_map.1 isKnown
            refine sound.ring.notMem_posted isPosting ?_
            rw [← sameId]
            exact (sound.known other isOther).1
        · simp only [goesOut, if_false]
          exact { posted with }
      next =>
        exact sound

/-- The device reports a request that it has not still to transmit. -/
theorem SendSound.acknowledge
    {request : Nat}
    {wrId : UInt64}
    (here : state.ring.posted[request]? = some wrId)
    (ok : Bool)
    (notUnsent : ∀ other ∈ state.unsent, other.held.wrId ≠ wrId) :
    SendSound msgBytes
      { state with
        ring := state.ring.next msgBytes (.complete request ok)
        onWire := state.onWire.filter fun held => held.wrId ≠ wrId } := by
  have fewer :
      (state.unsent.map WorkRequest.held ++
          state.onWire.filter fun held => held.wrId ≠ wrId).Sublist
        state.known :=
    List.Sublist.append_left List.filter_sublist _
  have forgotten :
      SendSound msgBytes
        { state with
          onWire := state.onWire.filter fun held => held.wrId ≠ wrId } :=
    { sound with
      known := fun held isKnown => sound.known held (fewer.subset isKnown)
      onWire := fun held isOnWire =>
        sound.onWire held (List.mem_of_mem_filter isOnWire)
      apart := sound.apart.sublist (fewer.map _) }
  refine forgotten.of_ring few rfl
    (fun held isFilled =>
      RingThreads.posting_next msgBytes (by simp)
        (sound.filled held isFilled).1) ?_
  intro held isKnown
  refine RingThreads.posted_next msgBytes (forgotten.known held isKnown).1 ?_
  intro other _ isComplete isHere
  cases isComplete
  simp only [here, Option.some.injEq] at isHere
  rcases List.mem_append.1 isKnown with isUnsent | isOnWire
  · obtain ⟨unsent, isRequest, isHeld⟩ := List.mem_map.1 isUnsent
    exact notUnsent unsent isRequest (by rw [isHeld, isHere])
  · rw [List.mem_filter, decide_eq_true_eq] at isOnWire
    exact isOnWire.2 isHere.symm

theorem SendSound.complete
    (request : Nat)
    (ok : Bool) :
    SendSound msgBytes (state.complete msgBytes request ok) := by
  unfold Link.complete
  split
  next =>
    exact sound
  next wrId here =>
    split
    next =>
      split
      next onWire =>
        refine sound.acknowledge few here true ?_
        intro other isUnsent same
        have apart := sound.apart
        rw [Link.known, List.map_append] at apart
        exact (List.nodup_append.1 apart).2.2 _
          (List.mem_map_of_mem (List.mem_map_of_mem isUnsent)) _ onWire same
      next =>
        exact sound
    next =>
      exact sound.breakDown.acknowledge few here false
        fun _ isUnsent => (List.not_mem_nil isUnsent).elim

end Steps

end Link

end Rdma

end Lethe
