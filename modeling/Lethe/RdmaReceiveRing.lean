import Mathlib.Data.List.Perm.Basic
import Mathlib.Data.List.ReduceOption
import Lethe.RdmaMessage
import Lethe.RdmaSendRing
import Lethe.Library.SlotPool

namespace Lethe

/-!
# The receive ring of an RDMA connection

An accepted connection posts all its buffers for receiving.  The device takes
the posted buffers in order, one for each message, and reports each message
with the number of its buffer and the number of bytes.  The poller takes a few
reports at a time; for each it copies the push out of the buffer, hands it on
and posts the buffer again.

Posting may fail, and its answer is not looked at.  Such a buffer is lost, and
so is one whose receive is flushed when the connection breaks.
-/

namespace Rdma

/-- Buffers posted for receiving. -/
def maxRecvBuffers : Nat :=
  16

/-- A new buffer. -/
def makeBuf
    (msgBytes : Nat) :
    RegBuf where
  mem := fun _ => 0
  size := msgCap msgBytes

/--
The receiving side of a connection: its buffers, those posted, the reports of
the device, those that the poller has taken, the buffer that it is about to
post again, and the pushes that it has handed on.
-/
structure ReceiveRing where
  bufs : List RegBuf
  posted : List Nat
  completed : List (Nat × UInt32) := []
  batch : List (Nat × UInt32) := []
  recycling : Option Nat := none
  lost : List Nat := []
  delivered : List ReceivedPush := []

/-- What becomes of a message that reaches the device. -/
inductive Arrival where
  | notReady
  | tooLong
  | received (ring : ReceiveRing)

namespace ReceiveRing

/-- Register the buffers and post them; the device may refuse some. -/
def setupInbound
    (msgBytes : Nat)
    (accepted : Nat → Bool) :
    ReceiveRing where
  bufs := List.replicate maxRecvBuffers (makeBuf msgBytes)
  posted := (List.range maxRecvBuffers).filter accepted
  lost := (List.range maxRecvBuffers).filter fun idx => !accepted idx

/-- The device puts a message into the buffer that was posted first. -/
def arrive
    (ring : ReceiveRing)
    (message : List UInt8) :
    Arrival :=
  match ring.posted with
  | [] => .notReady
  | idx :: rest =>
      match ring.bufs[idx]? with
      | none => .notReady
      | some buffer =>
          -- the length of a posted buffer is a field of 32 bits
          if (UInt32.ofNat buffer.size).toNat < message.length then
            .tooLong
          else
            .received
              { ring with
                bufs := ring.bufs.set idx (receiveInto buffer message)
                posted := rest
                completed :=
                  ring.completed ++ [(idx, UInt32.ofNat message.length)] }

/-- The poller takes some reports when it is done with the last ones. -/
def poll
    (ring : ReceiveRing)
    (count : Nat) :
    ReceiveRing :=
  if ring.batch = [] ∧ ring.recycling = none then
    { ring with
      batch := ring.completed.take (min count pollBatch)
      completed := ring.completed.drop (min count pollBatch) }
  else
    ring

/-- The push that a report is about, if it is one. -/
def pushOf
    (bufs : List RegBuf)
    (report : Nat × UInt32) :
    Option ReceivedPush :=
  bufs[report.1]?.bind fun buffer => handleRecv buffer report.2

/-- The poller copies the push of a report and hands it on. -/
def handle
    (ring : ReceiveRing) :
    ReceiveRing :=
  match ring.recycling, ring.batch with
  | none, report :: rest =>
      { ring with
        batch := rest
        recycling := some report.1
        delivered := ring.delivered ++ (pushOf ring.bufs report).toList }
  | _, _ => ring

/-- The poller posts the buffer again. -/
def postRecv
    (ring : ReceiveRing)
    (accepted : Bool) :
    ReceiveRing :=
  match ring.recycling with
  | none => ring
  | some idx =>
      if accepted then
        { ring with
          posted := ring.posted ++ [idx]
          recycling := none }
      else
        { ring with
          lost := ring.lost ++ [idx]
          recycling := none }

/-- A broken connection flushes the posted buffers; none is posted again. -/
def flush
    (ring : ReceiveRing) :
    ReceiveRing :=
  { ring with
    posted := []
    lost := ring.lost ++ ring.posted }

/-! ## Every buffer has one place -/

/-- Buffers that are not posted. -/
def taken
    (ring : ReceiveRing) :
    List Nat :=
  ring.completed.map Prod.fst ++
    (ring.batch.map Prod.fst ++ (ring.recycling.toList ++ ring.lost))

/-- Each buffer is in one place. -/
structure Sound
    (ring : ReceiveRing) :
    Prop where
  buffers : ring.bufs.length = maxRecvBuffers
  places : SlotPool.Split maxRecvBuffers ring.posted ring.taken

/-- The pushes that the device has reported and the poller not handled. -/
def inbox
    (ring : ReceiveRing) :
    List ReceivedPush :=
  ((ring.batch ++ ring.completed).map (pushOf ring.bufs)).reduceOption

theorem setupInbound_sound
    (msgBytes : Nat)
    (accepted : Nat → Bool) :
    (setupInbound msgBytes accepted).Sound where
  buffers := List.length_replicate
  places := List.filter_append_perm accepted (List.range maxRecvBuffers)

/-- What a received message changes. -/
structure Arrived
    (ring : ReceiveRing)
    (push : ReceivedPush)
    (after : ReceiveRing) :
    Prop where
  sound : after.Sound
  delivered : after.delivered = ring.delivered
  inbox : after.inbox = ring.inbox ++ [push]

/-- A step of the poller or a flush: nothing is lost or handed on twice. -/
structure Conserves
    (before after : ReceiveRing) :
    Prop where
  sound : after.Sound
  pushes :
    after.delivered ++ after.inbox = before.delivered ++ before.inbox

section Steps

variable {ring : ReceiveRing} (sound : ring.Sound)

include sound

/-- A report of a buffer is not about the one posted first. -/
theorem Sound.ne_of_report
    {idx : Nat}
    {rest : List Nat}
    (first : ring.posted = idx :: rest)
    {report : Nat × UInt32}
    (reported : report ∈ ring.batch ++ ring.completed) :
    report.1 ≠ idx := by
  intro same
  have isPosted : report.1 ∈ ring.posted := by
    rw [same, first]
    exact List.mem_cons_self
  refine sound.places.notMem_used isPosted ?_
  unfold taken
  rcases List.mem_append.1 reported with inBatch | inCompleted
  · exact List.mem_append_right _
      (List.mem_append_left _ (List.mem_map_of_mem inBatch))
  · exact List.mem_append_left _ (List.mem_map_of_mem inCompleted)

/-- A message joins the inbox behind the others, which stay as they are. -/
theorem arrived_of_arrive
    {after : ReceiveRing}
    {message : List UInt8}
    {push : ReceivedPush}
    (decodes :
      ∀ buffer,
        handleRecv (receiveInto buffer message)
            (UInt32.ofNat message.length) =
          some push)
    (received : ring.arrive message = .received after) :
    Arrived ring push after := by
  unfold arrive at received
  split at received
  next =>
    contradiction
  next idx rest first =>
    split at received
    next =>
      contradiction
    next buffer isBuffer =>
      split at received
      next =>
        contradiction
      next =>
        simp only [Arrival.received.injEq] at received
        subst received
        have inRange := (List.getElem?_eq_some_iff.1 isBuffer).1
        refine ⟨⟨?_, ?_⟩, rfl, ?_⟩
        · rw [List.length_set]
          exact sound.buffers
        · have places := sound.places
          unfold SlotPool.Split taken at places ⊢
          rw [first] at places
          refine List.Perm.trans ?_ places
          simp only [List.map_append, List.map_cons, List.map_nil]
          grind
        · have others :
              ∀ report ∈ ring.batch ++ ring.completed,
                pushOf (ring.bufs.set idx (receiveInto buffer message))
                    report =
                  pushOf ring.bufs report := by
            intro report reported
            have apart := sound.ne_of_report first reported
            unfold pushOf
            rw [List.getElem?_set_ne (Ne.symm apart)]
          unfold inbox
          dsimp only
          rw [← List.append_assoc, List.map_append,
            List.map_congr_left others, List.reduceOption_append]
          congr 1
          simp only [pushOf, List.map_cons, List.map_nil]
          rw [List.getElem?_set_self inRange, Option.bind_some, decodes]
          rfl

theorem poll_conserves
    (count : Nat) :
    Conserves ring (ring.poll count) := by
  unfold poll
  split
  next idle =>
    have whole :=
      List.take_append_drop (min count pollBatch) ring.completed
    refine ⟨⟨sound.buffers, ?_⟩, ?_⟩
    · have places := sound.places
      unfold SlotPool.Split taken at places ⊢
      refine List.Perm.trans ?_ places
      have moved := congrArg (List.map Prod.fst) whole
      simp only [idle.1, List.map_append] at moved ⊢
      grind
    · unfold inbox
      rw [idle.1, List.nil_append]
      dsimp only
      rw [whole]
  next =>
    exact ⟨sound, rfl⟩

theorem handle_conserves :
    Conserves ring ring.handle := by
  unfold handle
  split
  next report rest idle reports =>
    refine ⟨⟨sound.buffers, ?_⟩, ?_⟩
    · have places := sound.places
      unfold SlotPool.Split taken at places ⊢
      refine List.Perm.trans ?_ places
      simp only [idle, reports, Option.toList_some, Option.toList_none,
        List.map_cons]
      grind
    · unfold inbox
      rw [reports, List.cons_append, List.map_cons, List.append_assoc]
      congr 1
      cases isPush : pushOf ring.bufs report with
      | none =>
          rw [List.reduceOption_cons_of_none]
          rfl
      | some push =>
          rw [List.reduceOption_cons_of_some]
          rfl
  next =>
    exact ⟨sound, rfl⟩

theorem postRecv_conserves
    (accepted : Bool) :
    Conserves ring (ring.postRecv accepted) := by
  unfold postRecv
  split
  next =>
    exact ⟨sound, rfl⟩
  next idx recycled =>
    have places := sound.places
    unfold SlotPool.Split taken at places
    simp only [recycled, Option.toList_some] at places
    cases accepted with
    | _ =>
        refine ⟨⟨sound.buffers, ?_⟩, rfl⟩
        unfold SlotPool.Split taken
        refine List.Perm.trans ?_ places
        simp only [Option.toList_none, if_true, Bool.false_eq_true,
          if_false]
        grind

theorem flush_conserves :
    Conserves ring ring.flush := by
  refine ⟨⟨sound.buffers, ?_⟩, rfl⟩
  have places := sound.places
  unfold SlotPool.Split taken at places ⊢
  refine List.Perm.trans ?_ places
  simp only [flush]
  grind

/-- While no buffer is lost, one is posted or the poller has work. -/
theorem Sound.ready
    (noneLost : ring.lost = [])
    (nonePosted : ring.posted = []) :
    ring.completed ≠ [] ∨ ring.batch ≠ [] ∨ ring.recycling ≠ none := by
  by_contra idle
  simp only [not_or, not_not] at idle
  obtain ⟨noneCompleted, noBatch, notRecycling⟩ := idle
  have length := sound.places.length_eq
  simp [taken, noneLost, nonePosted, noneCompleted, noBatch, notRecycling,
    maxRecvBuffers] at length

end Steps

end ReceiveRing

end Rdma

end Lethe
