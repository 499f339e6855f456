import Tendermint.Types.Basic
import Tendermint.Lib.Except

/-!
# Channels of a multiplexed connection (`p2p/conn/connection.go`)

An `MConnection` carries several channels over one stream.  `Send` puts a message on its
channel's `sendQueue` and counts it in `sendQueueSize`.  The send routine calls `sendPacketMsg`
over and over: it asks every channel `isSendPending`, which moves the next queued message into
`sending` when `sending` is empty, and writes one `PacketMsg` of at most
`maxPacketMsgPayloadSize` bytes from the pending channel with the least `recentlySent / Priority`.
The last packet of a message has `EOF` set, and `sendQueueSize` is decremented then.  The peer's
`recvPacketMsg` appends packets to `recving` and hands the message to `onReceive` at `EOF`.

`isSendPending` tests "nothing in flight" by `len(ch.sending) == 0`, which an empty message in
flight also satisfies.  A channel whose empty message has been moved into `sending` but which
was not the one chosen loads its next message over it (`isSendPending_drops_empty`): the empty
message is never sent and `sendQueueSize` keeps counting it (`Send_empty_lost`).  Without empty
messages `sendQueueSize` does count the messages not yet fully written, in every reachable
state (`run_sendQueueSize`).

The sender's writes reach the peer whole and in order.  The ratio is compared exactly, where Go
compares two `float32` quotients; the size of a written packet is a parameter (`wireSize`).
-/

namespace Tendermint

namespace Conn

/-- `defaultMaxPacketMsgPayloadSize`. -/
def defaultMaxPacketMsgPayloadSize : Nat := 1024

/-- `defaultSendQueueCapacity`. -/
def defaultSendQueueCapacity : Nat := 1

/-- `defaultRecvMessageCapacity`. -/
def defaultRecvMessageCapacity : Nat := 22020096

/-- `ChannelDescriptor`, without the receive buffer's initial capacity, which only sizes an
allocation. -/
structure ChannelDescriptor where
  ID : UInt8
  Priority : Int
  SendQueueCapacity : Nat
  RecvMessageCapacity : Nat
  deriving DecidableEq, Repr

/-- `FillDefaults`: a zero capacity stands for the default one. -/
def ChannelDescriptor.FillDefaults (chDesc : ChannelDescriptor) : ChannelDescriptor :=
  { chDesc with
    SendQueueCapacity :=
      if chDesc.SendQueueCapacity = 0 then defaultSendQueueCapacity else chDesc.SendQueueCapacity
    RecvMessageCapacity :=
      if chDesc.RecvMessageCapacity = 0 then defaultRecvMessageCapacity
      else chDesc.RecvMessageCapacity }

/-- `Channel`; `sendQueue` is the buffered Go channel, oldest message first. -/
structure Channel where
  desc : ChannelDescriptor
  sendQueue : List Bytes
  sendQueueSize : Int
  recving : Bytes
  sending : Bytes
  recentlySent : Int
  maxPacketMsgPayloadSize : Nat
  deriving DecidableEq, Repr

/-- `tmp2p.PacketMsg`. -/
structure PacketMsg where
  ChannelID : Int
  EOF : Bool
  Data : Bytes
  deriving DecidableEq, Repr

/-- `newChannel`, for a connection whose config has `maxPacketMsgPayloadSize`. -/
def newChannel (maxPacketMsgPayloadSize : Nat) (desc : ChannelDescriptor) : Go Channel :=
  let desc := desc.FillDefaults
  if desc.Priority ≤ 0 then throw (.panic "Channel default priority must be a positive integer")
  else pure ⟨desc, [], 0, [], [], 0, maxPacketMsgPayloadSize⟩

namespace Channel

/-- Putting `bytes` on `sendQueue`, when the buffered channel has room. -/
def enqueue (ch : Channel) (bytes : Bytes) : Option Channel :=
  if ch.sendQueue.length < ch.desc.SendQueueCapacity then
    some { ch with sendQueue := ch.sendQueue ++ [bytes], sendQueueSize := ch.sendQueueSize + 1 }
  else none

/-- `sendBytes`: with nothing draining the queue while it waits, a full queue times out. -/
def sendBytes (ch : Channel) (bytes : Bytes) : Option Channel := ch.enqueue bytes

/-- `trySendBytes`. -/
def trySendBytes (ch : Channel) (bytes : Bytes) : Option Channel := ch.enqueue bytes

/-- `isSendPending`: when `sending` is empty, the next queued message, if any, is moved into
it. -/
def isSendPending (ch : Channel) : Bool × Channel :=
  if ch.sending.length = 0 then
    match ch.sendQueue with
    | [] => (false, ch)
    | bytes :: rest => (true, { ch with sending := bytes, sendQueue := rest })
  else (true, ch)

/-- `nextPacketMsg`: the first `maxPacketMsgPayloadSize` bytes of `sending`, with `EOF` when
they are all of it. -/
def nextPacketMsg (ch : Channel) : PacketMsg × Channel :=
  let maxSize := ch.maxPacketMsgPayloadSize
  let data := ch.sending.take (min maxSize ch.sending.length)
  if ch.sending.length ≤ maxSize then
    (⟨ch.desc.ID.toNat, true, data⟩, { ch with sending := [], sendQueueSize := ch.sendQueueSize - 1 })
  else
    (⟨ch.desc.ID.toNat, false, data⟩,
      { ch with sending := ch.sending.drop (min maxSize ch.sending.length) })

/-- `writePacketMsgTo`: the next packet, whose `wireSize` bytes written are added to
`recentlySent`. -/
def writePacketMsgTo (wireSize : PacketMsg → Nat) (ch : Channel) : PacketMsg × Channel :=
  let (packet, ch) := ch.nextPacketMsg
  (packet, { ch with recentlySent := ch.recentlySent + wireSize packet })

/-- `recvPacketMsg`: the packet's data appended to `recving`, and the whole message at `EOF`. -/
def recvPacketMsg (ch : Channel) (packet : PacketMsg) : Except String (Option Bytes × Channel) :=
  let recvReceived := ch.recving.length + packet.Data.length
  if ch.desc.RecvMessageCapacity < recvReceived then
    throw "received message exceeds available capacity: %v < %v"
  else
    let recving := ch.recving ++ packet.Data
    if packet.EOF then pure (some recving, { ch with recving := [] })
    else pure (none, { ch with recving := recving })

/-- `updateStats`: `recentlySent` decays by a fifth, rounded towards zero. -/
def updateStats (ch : Channel) : Channel :=
  { ch with recentlySent := (ch.recentlySent * 4).tdiv 5 }

/-- `recentlySent / Priority` of `ch` is below that of `o`, the priorities being positive. -/
def ratioLt (ch o : Channel) : Bool :=
  ch.recentlySent * o.desc.Priority < o.recentlySent * ch.desc.Priority

end Channel

/-- An `MConnection`, by its channels in the order they were created. -/
structure MConnection where
  channels : List Channel
  deriving DecidableEq, Repr

namespace MConnection

/-- `channelsIdx[chID]`: the index of the channel with that ID, the last one if two share it, as
the map is filled in channel order. -/
def channelIndex (c : MConnection) (chID : UInt8) : Option Nat :=
  (List.range c.channels.length).reverse.find? fun i =>
    (c.channels[i]?.map (·.desc.ID)) == some chID

/-- `Send` and `TrySend` on a running connection: `false` for an unknown channel or a full
queue. -/
def Send (c : MConnection) (chID : UInt8) (msgBytes : Bytes) : Bool × MConnection :=
  match c.channelIndex chID with
  | none => (false, c)
  | some i =>
    match c.channels[i]?.bind (·.sendBytes msgBytes) with
    | none => (false, c)
    | some ch => (true, { c with channels := c.channels.set i ch })

/-- The loop of `sendPacketMsg` over the channels from index `i`: every one is asked
`isSendPending`, and the first pending one of least ratio is kept with its index. -/
def scanChannels : List Channel → Nat → Option (Nat × Channel) → List Channel × Option (Nat × Channel)
  | [], _, least => ([], least)
  | ch :: rest, i, least =>
    let (pending, ch) := ch.isSendPending
    let least :=
      if pending && least.all (fun l => ch.ratioLt l.2) then some (i, ch) else least
    let (rest, least) := scanChannels rest (i + 1) least
    (ch :: rest, least)

/-- `sendPacketMsg`: the packet written, or `none` when no channel had anything to send. -/
def sendPacketMsg (wireSize : PacketMsg → Nat) (c : MConnection) :
    Option PacketMsg × MConnection :=
  let (channels, least) := scanChannels c.channels 0 none
  match least with
  | none => (none, { c with channels := channels })
  | some (i, ch) =>
    let (packet, ch) := ch.writePacketMsgTo wireSize
    (some packet, { c with channels := channels.set i ch })

/-- The `PacketMsg` case of `recvRoutine`: the message `onReceive` is given, if the packet
completes one. -/
def recvPacket (c : MConnection) (packet : PacketMsg) :
    Except String (Option (UInt8 × Bytes) × MConnection) :=
  let chID := packet.ChannelID.toNat.toUInt8
  match c.channelIndex chID with
  | none => throw "unknown channel %X"
  | some i =>
    match c.channels[i]? with
    | none => throw "unknown channel %X"
    | some ch => do
      let (msgBytes, ch) ← ch.recvPacketMsg packet
      pure (msgBytes.map (chID, ·), { c with channels := c.channels.set i ch })

end MConnection

/-- What happens on a connection: a `Send` by a reactor, one `sendPacketMsg` of the send routine,
whose packet the peer's receive routine reads at once, and a tick of `updateStats`. -/
inductive Event where
  | send (chID : UInt8) (msgBytes : Bytes)
  | sendPacket
  | updateStats
  deriving DecidableEq, Repr

/-- A sending connection and its peer, with what was queued by successful `Send`s and what the
peer handed to `onReceive`, in order. -/
structure World where
  sender : MConnection
  receiver : MConnection
  queued : List (UInt8 × Bytes)
  delivered : List (UInt8 × Bytes)
  deriving DecidableEq, Repr

/-- One event. -/
def step (wireSize : PacketMsg → Nat) (w : World) : Event → Except String World
  | .send chID msgBytes =>
    let (ok, sender) := w.sender.Send chID msgBytes
    pure { w with sender := sender, queued := if ok then w.queued ++ [(chID, msgBytes)] else w.queued }
  | .sendPacket =>
    match w.sender.sendPacketMsg wireSize with
    | (none, sender) => pure { w with sender := sender }
    | (some packet, sender) => do
      let (msg, receiver) ← w.receiver.recvPacket packet
      pure { w with sender := sender, receiver := receiver, delivered := w.delivered ++ msg.toList }
  | .updateStats => pure { w with sender := ⟨w.sender.channels.map Channel.updateStats⟩ }

/-- The events one after the other, stopping at the first error of the peer. -/
def run (wireSize : PacketMsg → Nat) : World → List Event → Except String World
  | w, [] => pure w
  | w, e :: es => do
    let w ← step wireSize w e
    run wireSize w es

/-- The messages of channel `chID`, in order. -/
def project (chID : UInt8) (msgs : List (UInt8 × Bytes)) : List Bytes :=
  (msgs.filter (·.1 == chID)).map (·.2)

namespace Channel

/-! ## A channel's count of pending messages -/

/-- The invariant of a channel whose queue holds no empty message: `sendQueueSize` counts the
queued messages and the one in `sending`, if any. -/
structure Inv (ch : Channel) : Prop where
  size : ch.sendQueueSize = ch.sendQueue.length + (if ch.sending = [] then 0 else 1)
  nonEmpty : ∀ m ∈ ch.sendQueue, m ≠ []

lemma newChannel_inv {maxPacketMsgPayloadSize : Nat} {desc : ChannelDescriptor} {ch : Channel}
    (h : newChannel maxPacketMsgPayloadSize desc = .ok ch) : ch.Inv := by
  unfold newChannel at h
  dsimp only at h
  split at h
  · cases h
  · cases h
    exact ⟨rfl, fun _ hm => nomatch hm⟩

lemma enqueue_inv {ch ch' : Channel} {bytes : Bytes} (hinv : ch.Inv) (hne : bytes ≠ [])
    (h : ch.enqueue bytes = some ch') : ch'.Inv := by
  unfold enqueue at h
  split at h
  · cases h
    refine ⟨?_, ?_⟩
    · simp only [List.length_append, List.length_singleton, hinv.size]
      push_cast
      ring
    · intro m hm
      rcases List.mem_append.mp hm with hq | hb
      · exact hinv.nonEmpty m hq
      · rw [List.mem_singleton.mp hb]
        exact hne
  · cases h

/-- A pending channel has its message in `sending`: the queue holds no empty one. -/
lemma isSendPending_inv {ch : Channel} (hinv : ch.Inv) :
    (ch.isSendPending).2.Inv ∧ ((ch.isSendPending).1 = true → (ch.isSendPending).2.sending ≠ []) := by
  unfold isSendPending
  split
  · rename_i hlen
    have hnil : ch.sending = [] := List.length_eq_zero_iff.mp hlen
    cases hq : ch.sendQueue with
    | nil => exact ⟨hinv, fun h => nomatch h⟩
    | cons bytes rest =>
      have hbytes : bytes ≠ [] := hinv.nonEmpty bytes (by rw [hq]; exact List.mem_cons_self)
      -- the message moves from the queue into `sending`, and the count stays
      refine ⟨⟨?_, fun m hm => hinv.nonEmpty m (by rw [hq]; exact List.mem_cons_of_mem _ hm)⟩,
        fun _ => hbytes⟩
      have hsize := hinv.size
      rw [hq, hnil] at hsize
      simp only [hsize, hbytes, List.length_cons, if_true, if_false]
      push_cast
      ring
  · exact ⟨hinv, fun _ h => absurd (List.length_eq_zero_iff.mpr h) ‹_›⟩

/-- The next packet of the message in `sending` keeps the count. -/
lemma nextPacketMsg_inv {ch : Channel} (hinv : ch.Inv) (hne : ch.sending ≠ []) :
    (ch.nextPacketMsg).2.Inv := by
  have hsize := hinv.size
  simp only [if_neg hne] at hsize
  unfold nextPacketMsg
  dsimp only
  split
  · -- the last packet of the message: `sending` is cleared and the count drops
    exact ⟨by simp only [hsize, if_true]; ring, hinv.nonEmpty⟩
  · -- more of the message is left in `sending`
    rename_i hlong
    have hrest : ch.sending.drop (min ch.maxPacketMsgPayloadSize ch.sending.length) ≠ [] := by
      intro hnil
      rw [List.drop_eq_nil_iff] at hnil
      omega
    exact ⟨by simp only [hsize, hrest, if_false], hinv.nonEmpty⟩

lemma writePacketMsgTo_inv (wireSize : PacketMsg → Nat) {ch : Channel} (hinv : ch.Inv)
    (hne : ch.sending ≠ []) : (ch.writePacketMsgTo wireSize).2.Inv := by
  have hnext := nextPacketMsg_inv hinv hne
  rcases hpm : ch.nextPacketMsg with ⟨packet, ch'⟩
  rw [hpm] at hnext
  simp only [writePacketMsgTo, hpm]
  exact ⟨hnext.size, hnext.nonEmpty⟩

lemma updateStats_inv {ch : Channel} (hinv : ch.Inv) : ch.updateStats.Inv :=
  ⟨hinv.size, hinv.nonEmpty⟩

/-- An empty message is lost when its channel, having moved it into `sending`, is asked again
before it is written: the next message is moved over it, and the count still has it. -/
theorem isSendPending_drops_empty {ch : Channel} {m : Bytes} {rest : List Bytes}
    (hsending : ch.sending = []) (hq : ch.sendQueue = [] :: m :: rest) :
    (ch.isSendPending.2.isSendPending) = (true, { ch with sending := m, sendQueue := rest }) := by
  simp [isSendPending, hsending, hq]

/-- Channel `1` with the empty message and `[7]` queued, and nothing being written. -/
def emptyFirst : Channel :=
  ⟨⟨1, 1, 2, 0⟩, [[], [7]], 2, [], [], 0, defaultMaxPacketMsgPayloadSize⟩

theorem isSendPending_drops_empty_seven :
    emptyFirst.sending = [] ∧ emptyFirst.sendQueue = [] :: [7] :: [] ∧
      emptyFirst.isSendPending.2.isSendPending =
        (true, { emptyFirst with sending := [7], sendQueue := [] }) ∧
      emptyFirst.isSendPending.2.isSendPending.2.sendQueueSize = 2 :=
  ⟨rfl, rfl, isSendPending_drops_empty rfl rfl, rfl⟩

end Channel

namespace MConnection

/-- Every channel keeps `Channel.Inv`. -/
def Inv (c : MConnection) : Prop := ∀ ch ∈ c.channels, ch.Inv

lemma set_inv {chs : List Channel} {ch : Channel} (h : ∀ ch ∈ chs, ch.Inv) (hch : ch.Inv)
    (i : Nat) : ∀ ch' ∈ chs.set i ch, ch'.Inv := by
  intro ch' hmem
  rcases List.mem_or_eq_of_mem_set hmem with hmem | rfl
  · exact h ch' hmem
  · exact hch

lemma Send_inv {c : MConnection} (hinv : c.Inv) (chID : UInt8) {msgBytes : Bytes}
    (hne : msgBytes ≠ []) : (c.Send chID msgBytes).2.Inv := by
  unfold Send
  split
  · exact hinv
  · rename_i i _
    split
    · exact hinv
    · rename_i ch hch
      obtain ⟨ch₀, hch₀, hsend⟩ := Option.bind_eq_some_iff.mp hch
      exact set_inv hinv
        (Channel.enqueue_inv (hinv ch₀ (List.mem_of_getElem? hch₀)) hne hsend) i

/-- The scan keeps every channel's invariant, and the channel it picks is the one at the index
it names, with a message in `sending`. -/
lemma scanChannels_inv : ∀ {chs : List Channel} {i : Nat} {least : Option (Nat × Channel)},
    (∀ ch ∈ chs, ch.Inv) →
      (∀ ch ∈ (scanChannels chs i least).1, ch.Inv) ∧
      ((scanChannels chs i least).2 = least ∨
        ∃ j ch, (scanChannels chs i least).2 = some (j, ch) ∧ i ≤ j ∧
          (scanChannels chs i least).1[j - i]? = some ch ∧ ch.sending ≠ [])
  | [], _, _, _ => ⟨(fun _ h => nomatch h), .inl rfl⟩
  | ch :: rest, i, least, h => by
    obtain ⟨hpend, hsending⟩ := Channel.isSendPending_inv (h ch List.mem_cons_self)
    -- the channel is picked here, or the pick is left to the rest of the scan
    set least' := if (ch.isSendPending.1 && least.all fun l => ch.isSendPending.2.ratioLt l.2)
      then some (i, ch.isSendPending.2) else least with hleast'
    obtain ⟨hrest, hpick⟩ := @scanChannels_inv rest (i + 1) least'
      (fun ch' hm => h ch' (List.mem_cons_of_mem _ hm))
    refine ⟨?_, ?_⟩
    · intro ch' hm
      simp only [scanChannels, List.mem_cons] at hm
      rcases hm with rfl | hm
      · exact hpend
      · exact hrest ch' hm
    · rcases hpick with heq | ⟨j, ch', hj, hij, hget, hne⟩
      · simp only [scanChannels, ← hleast', heq]
        by_cases hc : (ch.isSendPending.1 && least.all fun l => ch.isSendPending.2.ratioLt l.2)
        · rw [if_pos hc] at hleast'
          refine .inr ⟨i, _, hleast', le_refl i, by simp, hsending ?_⟩
          simp only [Bool.and_eq_true] at hc
          exact hc.1
        · rw [if_neg hc] at hleast'
          exact .inl hleast'
      · refine .inr ⟨j, ch', by simp only [scanChannels, ← hleast', hj], by omega, ?_, hne⟩
        have hji : j - i = (j - (i + 1)) + 1 := by omega
        simp only [scanChannels, ← hleast', hji, List.getElem?_cons_succ, hget]

lemma sendPacketMsg_inv (wireSize : PacketMsg → Nat) {c : MConnection} (hinv : c.Inv) :
    (c.sendPacketMsg wireSize).2.Inv := by
  obtain ⟨hchs, hpick⟩ := @scanChannels_inv c.channels 0 none hinv
  unfold sendPacketMsg
  split
  · rename_i channels least hscan
    rw [hscan] at hchs hpick
    split
    · exact hchs
    · rename_i i ch
      rcases hpick with h | ⟨j, ch', h, -, hget, hne⟩
      · cases h
      · cases h
        exact set_inv hchs (Channel.writePacketMsgTo_inv wireSize
          (hchs ch (List.mem_of_getElem? (by simpa using hget))) hne) _

lemma updateStats_inv {c : MConnection} (hinv : c.Inv) :
    (⟨c.channels.map Channel.updateStats⟩ : MConnection).Inv := by
  intro ch hm
  obtain ⟨ch₀, hm₀, rfl⟩ := List.mem_map.mp hm
  exact Channel.updateStats_inv (hinv ch₀ hm₀)

end MConnection

/-- A `Send` of an empty message. -/
def Event.sendsEmpty : Event → Bool
  | .send _ msgBytes => msgBytes.isEmpty
  | _ => false

/-- One event without an empty message keeps the sender's counts. -/
lemma step_inv (wireSize : PacketMsg → Nat) {w w' : World} {e : Event} (hinv : w.sender.Inv)
    (he : e.sendsEmpty = false) (h : step wireSize w e = .ok w') : w'.sender.Inv := by
  cases e with
  | send chID msgBytes =>
    cases h
    exact MConnection.Send_inv hinv chID (by simpa [Event.sendsEmpty] using he)
  | sendPacket =>
    have hsend := MConnection.sendPacketMsg_inv wireSize hinv
    rcases hs : w.sender.sendPacketMsg wireSize with ⟨_ | packet, sender⟩
    · rw [hs] at hsend
      simp only [step, hs] at h
      cases h
      exact hsend
    · rw [hs] at hsend
      simp only [step, hs] at h
      obtain ⟨⟨msg, receiver⟩, -, h⟩ := ExceptRun.bind_eq_ok h
      cases h
      exact hsend
  | updateStats =>
    cases h
    exact MConnection.updateStats_inv hinv

/-- **Without empty messages, `sendQueueSize` counts what is not yet written.**  Over every run
from a sender whose channels keep the count, with no `Send` of an empty message, each channel's
`sendQueueSize` is the number of its queued messages plus the one it is writing. -/
theorem run_sendQueueSize (wireSize : PacketMsg → Nat) :
    ∀ {w w' : World} {es : List Event}, w.sender.Inv → (∀ e ∈ es, e.sendsEmpty = false) →
      run wireSize w es = .ok w' → ∀ ch ∈ w'.sender.channels,
        ch.sendQueueSize = ch.sendQueue.length + (if ch.sending = [] then 0 else 1)
  | w, w', [], hinv, _, h => by
    cases h
    exact fun ch hm => (hinv ch hm).size
  | w, w', e :: es, hinv, hes, h => by
    obtain ⟨w₁, h₁, h⟩ := ExceptRun.bind_eq_ok h
    exact run_sendQueueSize wireSize (step_inv wireSize hinv (hes e List.mem_cons_self) h₁)
      (fun e' he' => hes e' (List.mem_cons_of_mem _ he')) h

/-- Channel `2`, then channel `1`, both of priority one and with room for two messages. -/
def pairDescs : List ChannelDescriptor := [⟨2, 1, 2, 0⟩, ⟨1, 1, 2, 0⟩]

/-- The two channels as `newChannel` makes them. -/
def pairConn : MConnection :=
  ⟨pairDescs.map fun desc => ⟨desc.FillDefaults, [], 0, [], [], 0, defaultMaxPacketMsgPayloadSize⟩⟩

/-- A connection with the channels of `pairDescs` and a peer with the same, before any event. -/
def pairWorld : World := ⟨pairConn, pairConn, [], []⟩

/-- Two messages on channel `1` and one on channel `2`, and two packets written: channel `2`'s
message is written whole, and channel `1` has one message left in its queue. -/
def pairSends : List Event :=
  [.send 1 [5], .send 1 [7], .send 2 [9], .sendPacket, .updateStats, .sendPacket]

theorem run_sendQueueSize_pair :
    pairWorld.sender.Inv ∧ (∀ e ∈ pairSends, e.sendsEmpty = false) ∧
      ∃ w', run (fun _ => 1) pairWorld pairSends = .ok w' ∧
        (∀ ch ∈ w'.sender.channels,
          ch.sendQueueSize = ch.sendQueue.length + (if ch.sending = [] then 0 else 1)) ∧
        w'.sender.channels.map (fun ch => (ch.sendQueue, ch.sendQueueSize)) = [([], 0), ([[7]], 1)] := by
  have hinv : pairWorld.sender.Inv := by
    -- the channels are those `newChannel` makes
    have hnew : ∀ desc ∈ pairDescs, newChannel defaultMaxPacketMsgPayloadSize desc =
        .ok ⟨desc.FillDefaults, [], 0, [], [], 0, defaultMaxPacketMsgPayloadSize⟩ :=
      ExceptRun.mapM_eq_ok_map_iff.mp rfl
    intro ch hm
    obtain ⟨desc, hdesc, rfl⟩ := List.mem_map.mp hm
    exact Channel.newChannel_inv (hnew desc hdesc)
  have hes : ∀ e ∈ pairSends, e.sendsEmpty = false := by decide
  obtain ⟨w', hrun⟩ : ∃ w', run (fun _ => 1) pairWorld pairSends = .ok w' := ⟨_, rfl⟩
  refine ⟨hinv, hes, w', hrun, run_sendQueueSize (fun _ => 1) hinv hes hrun, ?_⟩
  cases hrun
  rfl

/-! ## An empty message that is never sent -/


/-- **An empty message can be lost.**  On channel `1` a reactor sends the empty message and then
`[7]`, on channel `2` the message `[9]`.  The first `sendPacketMsg` moves `[9]` and the empty
message into `sending` and writes `[9]`, channel `2` coming first among two equal ratios.  The
second finds channel `1`'s `sending` empty and moves `[7]` over the empty message.  After that
nothing is pending: the peer has received `[7]` alone on channel `1`, and the channel still
counts one message. -/
theorem Send_empty_lost (wireSize : PacketMsg → Nat) :
    pairDescs.mapM (newChannel defaultMaxPacketMsgPayloadSize) = .ok pairConn.channels ∧
      ∃ w, run wireSize pairWorld [.send 1 [], .send 1 [7], .send 2 [9], .sendPacket, .sendPacket] =
          .ok w ∧
        project 1 w.queued = [[], [7]] ∧ project 1 w.delivered = [[7]] ∧
        (w.sender.sendPacketMsg wireSize).1 = none ∧
        w.sender.channels.map (fun ch => (ch.sendQueue, ch.sending, ch.sendQueueSize)) =
          [([], [], 0), ([], [], 1)] :=
  ⟨rfl, _, rfl, rfl, rfl, rfl, rfl⟩

end Conn

end Tendermint
