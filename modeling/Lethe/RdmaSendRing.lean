import Mathlib.Data.List.Induction
import Mathlib.Data.List.Perm.Basic
import Mathlib.Data.List.Range
import Lethe.RdmaMessage
import Lethe.Library.KeyedTotal
import Lethe.Library.SlotPool

namespace Lethe

/-!
# The send ring of an RDMA connection

An outbound connection has a few registered buffers.  A Send takes one under
the lock of the connection, fills it and posts a work request whose identifier
ends in the number of the buffer.  The buffer comes back under the same lock:
from the poller when the request completes, or from the Send itself when the
device refuses the post.

Every section under the lock is one step.  Promises are named by the number of
the Send that made them.
-/

namespace Rdma

/-- Buffers of the send ring. -/
def maxSendBuffers : Nat :=
  8

/-- How often a Send looks for a free buffer. -/
def maxAcquireAttempts : Nat :=
  2000

/-- How many completions one poll returns at most. -/
def pollBatch : Nat :=
  16

/-- The identifier of a work request; its low bits are the buffer. -/
def wrIdOf
    (nextWr : UInt64)
    (bufIdx : Nat) :
    UInt64 :=
  nextWr <<< 16 ||| UInt64.ofNat (bufIdx &&& 0xffff)

/-- The buffer of a work request. -/
def bufIdxOf
    (wrId : UInt64) :
    Nat :=
  (wrId &&& 0xffff).toNat

/-- A Send between taking a buffer and handing it on. -/
structure HeldBuffer where
  promise : Nat
  bufIdx : Nat
  wrId : UInt64
  deriving DecidableEq, Repr

/-- A Send that has no buffer yet. -/
structure Acquiring where
  promise : Nat
  attempts : Nat
  deriving DecidableEq, Repr

/-- What the lock of an outbound connection guards. -/
structure Conn where
  freeSend : List Nat
  pending : AList fun _ : UInt64 => Nat
  nextWr : UInt64

namespace Conn

/-- A new connection has all its buffers free. -/
def setupOutbound : Conn where
  freeSend := List.range maxSendBuffers
  pending := ∅
  nextWr := 1

/-- Take the last free buffer and register the promise of the Send. -/
def acquire
    (conn : Conn)
    (promise : Nat) :
    Option (HeldBuffer × Conn) :=
  match conn.freeSend.getLast? with
  | none =>
      none
  | some bufIdx =>
      let wrId := wrIdOf conn.nextWr bufIdx
      some
        (⟨promise, bufIdx, wrId⟩,
          { freeSend := conn.freeSend.dropLast
            pending := conn.pending.insert wrId promise
            nextWr := conn.nextWr + 1 })

/-- Forget a work request and free a buffer. -/
def release
    (conn : Conn)
    (wrId : UInt64)
    (bufIdx : Nat) :
    Conn :=
  { conn with
    pending := conn.pending.erase wrId
    freeSend := conn.freeSend ++ [bufIdx] }

end Conn

/--
A connection, the Sends that use it, its device and its poller.  `started`
numbers the promises of the Sends, and `settled` records which of them were set
to what; no step reads `settled`.
-/
structure RingThreads where
  conn : Conn := Conn.setupOutbound
  acquiring : List Acquiring := []
  posting : List HeldBuffer := []
  refused : List HeldBuffer := []
  posted : List UInt64 := []
  completed : List (UInt64 × Bool) := []
  batch : List (UInt64 × Bool) := []
  notifying : Option (Nat × Bool) := none
  started : Nat := 0
  settled : List (Nat × Bool) := []

/-- One section under the lock, or one step of a thread or the device. -/
inductive RingEvent where
  | send (size : Nat) (connected : Bool)
  | tryAcquire (call : Nat)
  | post (call : Nat) (accepted : Bool)
  | putBack (call : Nat)
  | complete (request : Nat) (ok : Bool)
  | poll (count : Nat)
  | handleCompletion
  | notify

namespace RingEvent

/-- Does the event start a Send? -/
def isSend : RingEvent → Bool
  | .send _ _ =>
      true
  | _ =>
      false

end RingEvent

namespace RingThreads

/-- A Send gives up at once if its block is too big or the peer is away. -/
def send
    (msgBytes : Nat)
    (state : RingThreads)
    (size : Nat)
    (connected : Bool) :
    RingThreads :=
  let promise := state.started
  if msgCap msgBytes < headerBytes + size ∨ connected = false then
    { state with
      started := state.started + 1
      settled := state.settled ++ [(promise, false)] }
  else
    { state with
      started := state.started + 1
      acquiring := state.acquiring ++ [⟨promise, 0⟩] }

/-- A Send looks for a free buffer; after the last attempt it gives up. -/
def tryAcquire
    (state : RingThreads)
    (call : Nat) :
    RingThreads :=
  match state.acquiring[call]? with
  | none =>
      state
  | some waiting =>
      match state.conn.acquire waiting.promise with
      | some (held, conn) =>
          { state with
            conn := conn
            acquiring := state.acquiring.eraseIdx call
            posting := state.posting ++ [held] }
      | none =>
          if waiting.attempts + 1 < maxAcquireAttempts then
            { state with
              acquiring :=
                state.acquiring.set call
                  { waiting with attempts := waiting.attempts + 1 } }
          else
            { state with
              acquiring := state.acquiring.eraseIdx call
              settled := state.settled ++ [(waiting.promise, false)] }

/-- A Send posts its work request; the device accepts or refuses it. -/
def post
    (state : RingThreads)
    (call : Nat)
    (accepted : Bool) :
    RingThreads :=
  match state.posting[call]? with
  | none =>
      state
  | some held =>
      if accepted then
        { state with
          posting := state.posting.eraseIdx call
          posted := state.posted ++ [held.wrId] }
      else
        { state with
          posting := state.posting.eraseIdx call
          refused := state.refused ++ [held] }

/-- A Send whose post was refused gives its buffer back. -/
def putBack
    (state : RingThreads)
    (call : Nat) :
    RingThreads :=
  match state.refused[call]? with
  | none =>
      state
  | some held =>
      { state with
        conn := state.conn.release held.wrId held.bufIdx
        refused := state.refused.eraseIdx call
        settled := state.settled ++ [(held.promise, false)] }

/-- The device completes a request that it has accepted. -/
def complete
    (state : RingThreads)
    (request : Nat)
    (ok : Bool) :
    RingThreads :=
  match state.posted[request]? with
  | none =>
      state
  | some wrId =>
      { state with
        posted := state.posted.eraseIdx request
        completed := state.completed ++ [(wrId, ok)] }

/-- The poller has handled its last batch and fetches the next. -/
def poll
    (state : RingThreads)
    (count : Nat) :
    RingThreads :=
  if state.batch = [] ∧ state.notifying = none then
    { state with
      batch := state.completed.take (min count pollBatch)
      completed := state.completed.drop (min count pollBatch) }
  else
    state

/-- The poller looks a completed request up and frees its buffer. -/
def handleCompletion
    (state : RingThreads) :
    RingThreads :=
  match state.notifying, state.batch with
  | none, (wrId, ok) :: rest =>
      match state.conn.pending.lookup wrId with
      | some promise =>
          { state with
            conn := state.conn.release wrId (bufIdxOf wrId)
            batch := rest
            notifying := some (promise, ok) }
      | none =>
          { state with batch := rest }
  | _, _ =>
      state

/-- Outside the lock the poller sets the promise it found. -/
def notify
    (state : RingThreads) :
    RingThreads :=
  match state.notifying with
  | none =>
      state
  | some result =>
      { state with
        notifying := none
        settled := state.settled ++ [result] }

/-- One event; a thread that is elsewhere in its code does nothing. -/
def next
    (msgBytes : Nat)
    (state : RingThreads) :
    RingEvent → RingThreads
  | .send size connected =>
      state.send msgBytes size connected
  | .tryAcquire call =>
      state.tryAcquire call
  | .post call accepted =>
      state.post call accepted
  | .putBack call =>
      state.putBack call
  | .complete request ok =>
      state.complete request ok
  | .poll count =>
      state.poll count
  | .handleCompletion =>
      state.handleCompletion
  | .notify =>
      state.notify

end RingThreads

/-! ## Identifiers of work requests -/

/-- An identifier is the number of the request followed by the buffer. -/
theorem toNat_wrIdOf
    {nextWr : UInt64}
    {bufIdx : Nat}
    (numbered : nextWr.toNat < 2 ^ 48)
    (isBuffer : bufIdx < maxSendBuffers) :
    (wrIdOf nextWr bufIdx).toNat = nextWr.toNat * 2 ^ 16 + bufIdx := by
  have small : bufIdx < 2 ^ 16 := by
    unfold maxSendBuffers at isBuffer
    omega
  have masked : bufIdx &&& 0xffff = bufIdx :=
    Nat.and_two_pow_sub_one_of_lt_two_pow small
  have word : bufIdx % 2 ^ 64 = bufIdx :=
    Nat.mod_eq_of_lt (by omega)
  have shifted : nextWr.toNat <<< 16 % 2 ^ 64 = 2 ^ 16 * nextWr.toNat := by
    rw [Nat.shiftLeft_eq, Nat.mul_comm]
    exact Nat.mod_eq_of_lt (by omega)
  unfold wrIdOf
  rw [UInt64.toNat_or, UInt64.toNat_shiftLeft, UInt64.toNat_ofNat', masked,
    word]
  change nextWr.toNat <<< 16 % 2 ^ 64 ||| bufIdx = _
  rw [shifted, ← Nat.two_pow_add_eq_or_of_lt small]
  omega

/-- The poller finds the buffer in the identifier. -/
theorem bufIdxOf_wrIdOf
    {nextWr : UInt64}
    {bufIdx : Nat}
    (numbered : nextWr.toNat < 2 ^ 48)
    (isBuffer : bufIdx < maxSendBuffers) :
    bufIdxOf (wrIdOf nextWr bufIdx) = bufIdx := by
  have masked :
      (wrIdOf nextWr bufIdx).toNat &&& 2 ^ 16 - 1 =
        (wrIdOf nextWr bufIdx).toNat % 2 ^ 16 :=
    Nat.and_two_pow_sub_one_eq_mod _ 16
  unfold bufIdxOf
  rw [UInt64.toNat_and]
  change (wrIdOf nextWr bufIdx).toNat &&& 2 ^ 16 - 1 = _
  rw [masked, toNat_wrIdOf numbered isBuffer]
  unfold maxSendBuffers at isBuffer
  omega

/-! ## The connection under its lock -/

namespace Conn

/--
Every buffer is either free or in exactly one pending request, and the pending
requests have smaller numbers than the next one.
-/
structure Sound
    (conn : Conn) :
    Prop where
  buffers :
    (conn.freeSend ++ conn.pending.keys.map bufIdxOf).Perm
      (List.range maxSendBuffers)
  numbered :
    ∀ wrId ∈ conn.pending.keys, wrId.toNat / 2 ^ 16 < conn.nextWr.toNat

/-- A new connection has no pending request. -/
theorem setupOutbound_sound :
    setupOutbound.Sound where
  buffers := by
    simp [setupOutbound, AList.keys]
  numbered := by
    simp [setupOutbound, AList.keys]

/-- The free buffers and those of pending requests share out the ring. -/
theorem Sound.split
    {conn : Conn}
    (sound : conn.Sound) :
    SlotPool.Split maxSendBuffers conn.freeSend
      (conn.pending.keys.map bufIdxOf) :=
  sound.buffers

/-- The keys of a pending table are one of them and the others. -/
theorem keys_perm_of_lookup
    {pending : AList fun _ : UInt64 => Nat}
    {wrId : UInt64}
    {promise : Nat}
    (present : pending.lookup wrId = some promise) :
    pending.keys.Perm (wrId :: (pending.erase wrId).keys) :=
  (AList.entries_perm_of_lookup present).map Sigma.fst

/-- What a Send gets when it finds a free buffer. -/
structure Acquired
    (conn : Conn)
    (promise : Nat)
    (held : HeldBuffer)
    (after : Conn) :
    Prop where
  ownPromise : held.promise = promise
  buffer : bufIdxOf held.wrId = held.bufIdx
  fresh : held.wrId ∉ conn.pending
  pending : after.pending = conn.pending.insert held.wrId promise
  nextWr : after.nextWr.toNat = conn.nextWr.toNat + 1
  sound : after.Sound

/-- A Send that finds a free buffer registers a new identifier. -/
theorem acquired_of_acquire
    {conn after : Conn}
    {promise : Nat}
    {held : HeldBuffer}
    (sound : conn.Sound)
    (few : conn.nextWr.toNat < 2 ^ 48)
    (taken : conn.acquire promise = some (held, after)) :
    Acquired conn promise held after := by
  unfold acquire at taken
  split at taken
  · exact absurd taken (by simp)
  · rename_i bufIdx isLast
    have shape : conn.freeSend = conn.freeSend.dropLast ++ [bufIdx] :=
      (List.dropLast_append_getLast? bufIdx isLast).symm
    have isBuffer : bufIdx < maxSendBuffers := by
      refine (sound.split.lt_iff bufIdx).mpr (Or.inl ?_)
      rw [shape]
      simp
    simp only [Option.some.injEq, Prod.mk.injEq] at taken
    obtain ⟨rfl, rfl⟩ := taken
    have fresh : wrIdOf conn.nextWr bufIdx ∉ conn.pending := by
      intro old
      have below := sound.numbered _ (AList.mem_keys.mp old)
      rw [toNat_wrIdOf few isBuffer] at below
      unfold maxSendBuffers at isBuffer
      omega
    have increased :
        (conn.nextWr + 1).toNat = conn.nextWr.toNat + 1 := by
      rw [UInt64.toNat_add]
      change (conn.nextWr.toNat + 1) % 2 ^ 64 = _
      omega
    have keys :
        (conn.pending.insert (wrIdOf conn.nextWr bufIdx) promise).keys =
          wrIdOf conn.nextWr bufIdx :: conn.pending.keys := by
      rw [AList.keys_insert, List.erase_of_not_mem]
      rwa [← AList.mem_keys]
    refine
      { ownPromise := rfl
        buffer := bufIdxOf_wrIdOf few isBuffer
        fresh := fresh
        pending := rfl
        nextWr := increased
        sound := ⟨?_, ?_⟩ }
    · have before := sound.buffers
      rw [shape, List.append_assoc] at before
      rw [keys, List.map_cons, bufIdxOf_wrIdOf few isBuffer]
      exact before
    · intro wrId isPending
      rw [keys] at isPending
      simp only [increased]
      rcases List.mem_cons.mp isPending with isNew | isOld
      · rw [isNew, toNat_wrIdOf few isBuffer]
        unfold maxSendBuffers at isBuffer
        omega
      · have below := sound.numbered wrId isOld
        omega

/-- Releasing a pending request frees its buffer. -/
theorem release_sound
    {conn : Conn}
    {wrId : UInt64}
    {promise bufIdx : Nat}
    (sound : conn.Sound)
    (present : conn.pending.lookup wrId = some promise)
    (buffer : bufIdxOf wrId = bufIdx) :
    (conn.release wrId bufIdx).Sound := by
  have keys := keys_perm_of_lookup present
  refine ⟨?_, ?_⟩
  · have parts :
        (conn.freeSend ++ conn.pending.keys.map bufIdxOf).Perm
          (conn.freeSend ++
            bufIdx :: (conn.pending.erase wrId).keys.map bufIdxOf) := by
      rw [← buffer]
      exact (keys.map bufIdxOf).append_left _
    have before := parts.symm.trans sound.buffers
    simpa [release] using before
  · intro other isPending
    exact sound.numbered other
      (keys.symm.subset (List.mem_cons_of_mem _ isPending))

end Conn

/-! ## All threads -/

namespace RingThreads

/-- Requests that hold a buffer, wherever they are. -/
def requests
    (state : RingThreads) :
    List UInt64 :=
  state.posting.map HeldBuffer.wrId ++
    (state.refused.map HeldBuffer.wrId ++
      (state.posted ++
        (state.completed.map Prod.fst ++ state.batch.map Prod.fst)))

/-- Promises of all Sends, wherever they are. -/
def promises
    (state : RingThreads) :
    List Nat :=
  state.acquiring.map Acquiring.promise ++
    (state.conn.pending.entries.map Sigma.snd ++
      (state.notifying.toList.map Prod.fst ++ state.settled.map Prod.fst))

/--
Every pending request is with one thread or the device, and every promise is
waiting, pending, about to be set or set, and only one of these.
-/
structure Sound
    (state : RingThreads) :
    Prop where
  conn : state.conn.Sound
  requests : state.requests.Perm state.conn.pending.keys
  promises : state.promises.Perm (List.range state.started)
  owned :
    ∀ held ∈ state.posting ++ state.refused,
      state.conn.pending.lookup held.wrId = some held.promise ∧
        bufIdxOf held.wrId = held.bufIdx
  counted :
    state.conn.nextWr.toNat + state.acquiring.length ≤ state.started + 1

/-- A list consists of the element at an index and the others. -/
theorem perm_cons_eraseIdx
    {items : List Item}
    {index : Nat}
    {item : Item}
    (here : items[index]? = some item) :
    items.Perm (item :: items.eraseIdx index) := by
  obtain ⟨inRange, isItem⟩ := List.getElem?_eq_some_iff.mp here
  rw [← isItem]
  exact (List.getElem_cons_eraseIdx_perm inRange).symm

/-- A new connection without calls. -/
theorem initial_sound :
    ({} : RingThreads).Sound where
  conn := Conn.setupOutbound_sound
  requests := by
    simp [RingThreads.requests, Conn.setupOutbound, AList.keys]
  promises := by
    simp [RingThreads.promises, Conn.setupOutbound]
  owned := by
    simp
  counted := by
    simp [Conn.setupOutbound]

/-- A new Send brings a new promise. -/
theorem send_sound
    {state : RingThreads}
    (msgBytes size : Nat)
    (connected : Bool)
    (sound : state.Sound) :
    (state.send msgBytes size connected).Sound := by
  have added :
      (state.promises ++ [state.started]).Perm
        (List.range (state.started + 1)) := by
    rw [List.range_succ]
    exact sound.promises.append_right _
  have counted := sound.counted
  unfold send
  split
  · refine ⟨sound.conn, sound.requests, ?_, sound.owned, ?_⟩
    · simpa [RingThreads.promises] using added
    · simp only
      omega
  · refine ⟨sound.conn, sound.requests, ?_, sound.owned, ?_⟩
    · refine List.Perm.trans ?_ added
      simp only [RingThreads.promises, List.map_append, List.map_cons,
        List.map_nil]
      rw [List.append_assoc]
      exact (List.perm_append_comm).append_left _ |>.trans
        (by rw [← List.append_assoc])
    · simp only [List.length_append, List.length_singleton]
      omega

/-- The device's answer to a post moves a request. -/
theorem post_sound
    {state : RingThreads}
    (call : Nat)
    (accepted : Bool)
    (sound : state.Sound) :
    (state.post call accepted).Sound := by
  unfold post
  split
  · exact sound
  · rename_i held here
    have parts := perm_cons_eraseIdx here
    have kept : ∀ other ∈ state.posting.eraseIdx call, other ∈ state.posting :=
      fun other member => List.mem_of_mem_eraseIdx member
    have moved := parts.map HeldBuffer.wrId
    have isHeld : held ∈ state.posting := List.mem_of_getElem? here
    split
    · refine ⟨sound.conn, ?_, sound.promises, ?_, sound.counted⟩
      · refine List.Perm.trans ?_ sound.requests
        simp only [RingThreads.requests]
        grind
      · grind [sound.owned]
    · refine ⟨sound.conn, ?_, sound.promises, ?_, sound.counted⟩
      · refine List.Perm.trans ?_ sound.requests
        simp only [RingThreads.requests]
        grind
      · grind [sound.owned]

/-- The device moves a request to the completion queue. -/
theorem complete_sound
    {state : RingThreads}
    (request : Nat)
    (ok : Bool)
    (sound : state.Sound) :
    (state.complete request ok).Sound := by
  unfold complete
  split
  · exact sound
  · rename_i wrId here
    have parts := perm_cons_eraseIdx here
    refine ⟨sound.conn, ?_, sound.promises, sound.owned, sound.counted⟩
    refine List.Perm.trans ?_ sound.requests
    simp only [RingThreads.requests]
    grind

/-- The poller moves completions into its batch. -/
theorem poll_sound
    {state : RingThreads}
    (count : Nat)
    (sound : state.Sound) :
    (state.poll count).Sound := by
  unfold poll
  split
  · rename_i idle
    refine ⟨sound.conn, ?_, sound.promises, sound.owned, sound.counted⟩
    have split :=
      (List.take_append_drop (min count pollBatch) state.completed)
    have moved := congrArg (List.map Prod.fst) split
    refine List.Perm.trans ?_ sound.requests
    simp only [RingThreads.requests, idle.1]
    grind
  · exact sound

/-- Setting the promise that the poller holds. -/
theorem notify_sound
    {state : RingThreads}
    (sound : state.Sound) :
    state.notify.Sound := by
  unfold notify
  split
  · exact sound
  · rename_i result isNotifying
    refine ⟨sound.conn, sound.requests, ?_, sound.owned, sound.counted⟩
    refine List.Perm.trans ?_ sound.promises
    simp only [RingThreads.promises, isNotifying]
    grind

/--
A request leaves its thread and the table together, and its promise passes to
whoever sets it.
-/
theorem sound_of_release
    {state after : RingThreads}
    {wrId : UInt64}
    {promise : Nat}
    (sound : state.Sound)
    (present : state.conn.pending.lookup wrId = some promise)
    (conn : after.conn = state.conn.release wrId (bufIdxOf wrId))
    (acquiring : after.acquiring = state.acquiring)
    (started : after.started = state.started)
    (fewer :
      ∀ held ∈ after.posting ++ after.refused,
        held ∈ state.posting ++ state.refused)
    (requests : state.requests.Perm (wrId :: after.requests))
    (passed :
      (after.notifying.toList.map Prod.fst ++
        after.settled.map Prod.fst).Perm
      (promise ::
        (state.notifying.toList.map Prod.fst ++
          state.settled.map Prod.fst))) :
    after.Sound := by
  have pending : after.conn.pending = state.conn.pending.erase wrId := by
    rw [conn]
    rfl
  have remaining : after.requests.Perm after.conn.pending.keys := by
    rw [pending]
    have whole :=
      requests.symm.trans
        (sound.requests.trans (Conn.keys_perm_of_lookup present))
    exact whole.cons_inv
  refine ⟨?_, remaining, ?_, ?_, ?_⟩
  · rw [conn]
    exact Conn.release_sound sound.conn present rfl
  · have values :=
      (AList.entries_perm_of_lookup present).map Sigma.snd
    have before := sound.promises
    unfold RingThreads.promises at before ⊢
    rw [acquiring, started, pending]
    refine List.Perm.trans (List.Perm.append_left _ ?_) before
    refine (passed.append_left _).trans ?_
    refine List.perm_middle.trans ?_
    exact (values.append_right _).symm
  · intro held isHeld
    have inRequests : held.wrId ∈ after.requests := by
      unfold RingThreads.requests
      grind
    have isPending : held.wrId ∈ state.conn.pending.erase wrId := by
      rw [← pending]
      exact AList.mem_keys.mpr (remaining.subset inRequests)
    have otherId := (AList.mem_erase.mp isPending).1
    rw [pending, AList.lookup_erase_ne otherId]
    exact sound.owned held (fewer held isHeld)
  · rw [conn, acquiring, started]
    exact sound.counted

/-- A refused Send returns its buffer and sets its promise. -/
theorem putBack_sound
    {state : RingThreads}
    (call : Nat)
    (sound : state.Sound) :
    (state.putBack call).Sound := by
  unfold putBack
  split
  · exact sound
  · rename_i held here
    have isHeld : held ∈ state.posting ++ state.refused :=
      List.mem_append_right _ (List.mem_of_getElem? here)
    obtain ⟨present, buffer⟩ := sound.owned held isHeld
    have parts := (perm_cons_eraseIdx here).map HeldBuffer.wrId
    refine sound_of_release sound present ?_ rfl rfl ?_ ?_ ?_
    · rw [buffer]
    · grind [List.mem_of_mem_eraseIdx]
    · simp only [RingThreads.requests]
      grind
    · simp only [List.map_append, List.map_cons, List.map_nil]
      grind

/-- The poller frees a buffer and keeps the promise for later. -/
theorem handleCompletion_sound
    {state : RingThreads}
    (sound : state.Sound) :
    state.handleCompletion.Sound := by
  unfold handleCompletion
  split
  · rename_i wrId ok rest quiet polled
    have isPending : wrId ∈ state.conn.pending := by
      refine AList.mem_keys.mpr (sound.requests.subset ?_)
      simp [RingThreads.requests, polled]
    obtain ⟨promise, present⟩ :=
      Option.isSome_iff_exists.mp (AList.lookup_isSome.mpr isPending)
    simp only [present]
    refine sound_of_release sound present rfl rfl rfl ?_ ?_ ?_
    · exact fun held isHeld => isHeld
    · simp only [RingThreads.requests, polled]
      grind
    · simp [quiet]
  · exact sound

/-- A Send that gets a buffer moves its promise to the pending table. -/
theorem sound_of_acquired
    {state : RingThreads}
    {call : Nat}
    {waiting : Acquiring}
    {held : HeldBuffer}
    {conn : Conn}
    (sound : state.Sound)
    (here : state.acquiring[call]? = some waiting)
    (acquired : state.conn.Acquired waiting.promise held conn) :
    { state with
      conn := conn
      acquiring := state.acquiring.eraseIdx call
      posting := state.posting ++ [held] }.Sound := by
  have parts := perm_cons_eraseIdx here
  have entries :
      conn.pending.entries =
        ⟨held.wrId, waiting.promise⟩ :: state.conn.pending.entries := by
    rw [acquired.pending, AList.entries_insert_of_notMem acquired.fresh]
  have keys : conn.pending.keys = held.wrId :: state.conn.pending.keys := by
    simp [AList.keys, entries, List.keys]
  refine ⟨acquired.sound, ?_, ?_, ?_, ?_⟩
  · have before := sound.requests
    simp only [RingThreads.requests, keys] at before ⊢
    grind
  · have moved := parts.map Acquiring.promise
    refine List.Perm.trans ?_ sound.promises
    simp only [RingThreads.promises, entries, List.map_cons]
    grind
  · intro other isOther
    have known : other = held ∨ other ∈ state.posting ++ state.refused := by
      grind
    simp only [acquired.pending]
    rcases known with isNew | isOld
    · rw [isNew, AList.lookup_insert, acquired.ownPromise]
      exact ⟨rfl, acquired.buffer⟩
    · obtain ⟨present, buffer⟩ := sound.owned other isOld
      have otherId : other.wrId ≠ held.wrId := by
        intro same
        refine acquired.fresh (AList.lookup_isSome.mp ?_)
        rw [← same, present]
        rfl
      rw [AList.lookup_insert_ne otherId]
      exact ⟨present, buffer⟩
  · have counted := sound.counted
    have fewer := parts.length_eq
    simp only [List.length_cons] at fewer
    simp only [acquired.nextWr]
    omega

/-- A Send gets a buffer, tries again or gives up. -/
theorem tryAcquire_sound
    {state : RingThreads}
    (call : Nat)
    (sound : state.Sound)
    (few : state.started < 2 ^ 48) :
    (state.tryAcquire call).Sound := by
  unfold tryAcquire
  split
  · exact sound
  · rename_i waiting here
    have counted := sound.counted
    have parts := perm_cons_eraseIdx here
    have fewer := parts.length_eq
    simp only [List.length_cons] at fewer
    have moved := parts.map Acquiring.promise
    split
    · rename_i held conn taken
      exact sound_of_acquired sound here
        (Conn.acquired_of_acquire sound.conn (by omega) taken)
    · split
      · refine ⟨sound.conn, sound.requests, ?_, sound.owned, ?_⟩
        · refine List.Perm.trans ?_ sound.promises
          have again :=
            (List.set_perm_cons_eraseIdx
              (List.getElem?_eq_some_iff.mp here).1
              { waiting with
                attempts := waiting.attempts + 1 }).map Acquiring.promise
          simp only [RingThreads.promises]
          grind
        · simpa using counted
      · refine ⟨sound.conn, sound.requests, ?_, sound.owned, ?_⟩
        · refine List.Perm.trans ?_ sound.promises
          simp only [RingThreads.promises]
          grind
        · simp only
          omega

/-- Only the start of a Send counts as one. -/
theorem started_next
    (msgBytes : Nat)
    (state : RingThreads)
    (event : RingEvent) :
    (state.next msgBytes event).started =
      state.started + if event.isSend then 1 else 0 := by
  cases event with
  | send size connected =>
      simp only [next, send, RingEvent.isSend]
      split <;> rfl
  | tryAcquire call =>
      simp only [next, tryAcquire, RingEvent.isSend]
      grind
  | post call accepted =>
      simp only [next, post, RingEvent.isSend]
      grind
  | putBack call =>
      simp only [next, putBack, RingEvent.isSend]
      grind
  | complete request ok =>
      simp only [next, complete, RingEvent.isSend]
      grind
  | poll count =>
      simp only [next, poll, RingEvent.isSend]
      grind
  | handleCompletion =>
      simp only [next, handleCompletion, RingEvent.isSend]
      grind
  | notify =>
      simp only [next, notify, RingEvent.isSend]
      grind

/-- Every step keeps the ring sound while request numbers fit. -/
theorem next_sound
    {state : RingThreads}
    (msgBytes : Nat)
    (event : RingEvent)
    (sound : state.Sound)
    (few : state.started < 2 ^ 48) :
    (state.next msgBytes event).Sound := by
  cases event with
  | send size connected =>
      exact send_sound msgBytes size connected sound
  | tryAcquire call =>
      exact tryAcquire_sound call sound few
  | post call accepted =>
      exact post_sound call accepted sound
  | putBack call =>
      exact putBack_sound call sound
  | complete request ok =>
      exact complete_sound request ok sound
  | poll count =>
      exact poll_sound count sound
  | handleCompletion =>
      exact handleCompletion_sound sound
  | notify =>
      exact notify_sound sound

/-- The ring stays sound through every run with fewer Sends than numbers. -/
theorem run_sound
    (msgBytes : Nat)
    (events : List RingEvent)
    (few : events.countP RingEvent.isSend < 2 ^ 48) :
    (events.foldl (next msgBytes) {}).Sound ∧
      (events.foldl (next msgBytes) {}).started =
        events.countP RingEvent.isSend := by
  induction events using List.reverseRecOn with
  | nil =>
      exact ⟨initial_sound, rfl⟩
  | append_singleton events event inductionHypothesis =>
      rw [List.countP_append, List.countP_singleton] at few
      obtain ⟨sound, started⟩ := inductionHypothesis (by omega)
      rw [List.foldl_append, List.foldl_cons, List.foldl_nil]
      refine ⟨next_sound msgBytes event sound (by omega), ?_⟩
      rw [started_next, started, List.countP_append, List.countP_singleton]

/--
No buffer is shared.  `requests` lists the requests of all threads and of the
device with their repetitions.
-/
structure ExclusiveBuffers
    (state : RingThreads) :
    Prop where
  freeOnce : state.conn.freeSend.Nodup
  notBoth :
    ∀ wrId ∈ state.conn.pending, bufIdxOf wrId ∉ state.conn.freeSend
  allBuffers :
    ∀ bufIdx,
      bufIdx < maxSendBuffers ↔
        bufIdx ∈ state.conn.freeSend ∨
          ∃ wrId ∈ state.conn.pending, bufIdxOf wrId = bufIdx
  inTable : ∀ wrId, wrId ∈ state.requests ↔ wrId ∈ state.conn.pending
  ownWrId : state.requests.Nodup
  ownBuffer : (state.requests.map bufIdxOf).Nodup
  setOnce : (state.settled.map Prod.fst).Nodup

/-- A sound ring shares no buffer. -/
theorem exclusiveBuffers_of_sound
    {state : RingThreads}
    (sound : state.Sound) :
    state.ExclusiveBuffers := by
  have split := sound.conn.split
  have promisesOnce : state.promises.Nodup :=
    sound.promises.nodup_iff.mpr List.nodup_range
  unfold RingThreads.promises at promisesOnce
  refine ⟨split.free_nodup, ?_, ?_, ?_, ?_, ?_, ?_⟩
  · intro wrId isPending isFree
    exact split.notMem_used isFree (List.mem_map_of_mem isPending)
  · intro bufIdx
    rw [split.lt_iff, List.mem_map]
    rfl
  · intro wrId
    exact sound.requests.mem_iff
  · exact sound.requests.nodup_iff.mpr state.conn.pending.keys_nodup
  · exact (sound.requests.map bufIdxOf).nodup_iff.mpr split.used_nodup
  · exact (List.nodup_append.mp
      (List.nodup_append.mp
        (List.nodup_append.mp promisesOnce).2.1).2.1).2.1

/--
However Sends, posts, completions and the poller interleave, no buffer of the
ring is shared and no promise is set twice.
-/
theorem send_ring_never_shares_a_buffer
    (msgBytes : Nat)
    (events : List RingEvent)
    (few : events.countP RingEvent.isSend < 2 ^ 48) :
    (events.foldl (next msgBytes) {}).ExclusiveBuffers :=
  exclusiveBuffers_of_sound (run_sound msgBytes events few).1

/--
Two Sends overlap; the post of one is refused, the other completes, and both
buffers are free again.
-/
def overlappingSends : List RingEvent :=
  [ .send 3 true, .send 5 true, .tryAcquire 0, .tryAcquire 0, .post 0 true,
    .post 0 false, .complete 0 true, .poll 1, .handleCompletion, .putBack 0,
    .notify ]

theorem send_ring_never_shares_a_buffer_overlapping :
    (overlappingSends.foldl (next 16) {}).settled = [(1, false), (0, true)] ∧
      (overlappingSends.foldl (next 16) {}).conn.freeSend =
        [0, 1, 2, 3, 4, 5, 7, 6] ∧
      (overlappingSends.foldl (next 16) {}).ExclusiveBuffers :=
  ⟨by decide +kernel, by decide +kernel,
    send_ring_never_shares_a_buffer 16 overlappingSends (by decide)⟩

end RingThreads

end Rdma

end Lethe
