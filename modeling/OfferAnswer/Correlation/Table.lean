import OfferAnswer.Rtcp.Packet

/-!
# RTCP correlation

Which of our sources a remote source reports on, and where its RTCP goes. A binding is learned
from the remote description or from the reports themselves; the first one learned for a remote
source stays until it is taken away. Every buffer goes once to the channel of each of our sources
that its packets speak of, or, if they speak of none, to the passthrough queue.

Channels come into being with the first buffer for their source, and each time the table says so.
Whoever listens may bind further sources on being told, which is why `Table.route` takes the
listener as a function from the announced source to the bindings it asks for. The targets of a
buffer are settled before the first announcement, so a listener cannot change where the buffer
goes.

A closed table keeps nothing and takes nothing.
-/

namespace OfferAnswer

/-- How a binding was learned. -/
inductive Discovery where
  /-- From the first block of a receiver report. -/
  | receiverReport
  /-- From an intra request. -/
  | intraRequest
  /-- From the list of a bandwidth estimate. -/
  | estimate
  /-- From the remote description. -/
  | description
deriving DecidableEq, Repr

/-- A remote source and the local source it reports on. -/
structure SsrcBinding where
  /-- The source of the remote side. -/
  remote : Ssrc
  /-- Our source. -/
  source : Ssrc
  /-- How the pair was learned. -/
  via : Discovery
deriving DecidableEq, Repr

/-- The queue of one of our sources. -/
structure RtcpChannel where
  /-- Our source. -/
  source : Ssrc
  /-- The buffers, oldest first. -/
  queue : List Bytes
deriving DecidableEq, Repr

/-- What became of a buffer. -/
inductive RtcpOutcome where
  /-- Delivered once to the channel of each source. -/
  | routed (targets : List Ssrc)
  /-- Delivered to the passthrough queue. -/
  | passthrough
  /-- Delivered nowhere. -/
  | dropped
deriving DecidableEq, Repr

/-- The bindings and queues of a session. -/
structure CorrelationTable where
  /-- The bindings, one for each remote source. -/
  bindings : List SsrcBinding := []
  /-- The channels, one for each of our sources that has one. -/
  channels : List RtcpChannel := []
  /-- The buffers that went to none of our sources, oldest first. -/
  passthrough : List Bytes := []
  /-- Whether the table is closed. -/
  closed : Bool := false
  /-- The sources whose channels came into being, in order. -/
  announced : List Ssrc := []
deriving DecidableEq, Repr

namespace CorrelationTable

/-! ## Bindings -/

def binding? (t : CorrelationTable) (remote : Ssrc) : Option SsrcBinding :=
  t.bindings.find? (·.remote == remote)

/-- The bindings to one of our sources. -/
def bindingsTo (t : CorrelationTable) (source : Ssrc) : List SsrcBinding :=
  t.bindings.filter (·.source == source)

/-- Whether a binding would be taken: the table is open and the remote source is free. -/
def canBind (t : CorrelationTable) (remote : Ssrc) : Bool :=
  !t.closed && (t.binding? remote).isNone

/-- Binds a remote source, unless it is bound. -/
def bind (t : CorrelationTable) (b : SsrcBinding) : CorrelationTable :=
  if t.canBind b.remote then { t with bindings := t.bindings ++ [b] } else t

/-- Binds several remote sources in order. -/
def bindAll (t : CorrelationTable) (bs : List SsrcBinding) : CorrelationTable :=
  bs.foldl bind t

/-- Takes away the binding of a remote source. -/
def unbind (t : CorrelationTable) (remote : Ssrc) : CorrelationTable :=
  { t with bindings := t.bindings.filter (·.remote != remote) }

/-- Takes away every binding to one of our sources, and its channel. -/
def unbindSource (t : CorrelationTable) (source : Ssrc) : CorrelationTable :=
  { t with
    bindings := t.bindings.filter (·.source != source)
    channels := t.channels.filter (·.source != source) }

/-- Closes the table for good and empties it. -/
def close (t : CorrelationTable) : CorrelationTable :=
  { t with bindings := [], channels := [], passthrough := [], closed := true }

/-! ## Channels -/

def channel? (t : CorrelationTable) (source : Ssrc) : Option RtcpChannel :=
  t.channels.find? (·.source == source)

/-- Changes the queue of one of our sources. -/
def setQueue (t : CorrelationTable) (source : Ssrc) (queue : List Bytes) : CorrelationTable :=
  { t with
    channels := t.channels.map fun c ↦ if c.source = source then { c with queue := queue } else c }

/-- The buffers that wait for one of our sources, oldest first. -/
def waiting (t : CorrelationTable) (source : Ssrc) : List Bytes :=
  ((t.channel? source).map (·.queue)).getD []

/-- Takes the oldest buffer that waits for one of our sources. -/
def pop (t : CorrelationTable) (source : Ssrc) : Option Bytes × CorrelationTable :=
  ((t.waiting source).head?, t.setQueue source (t.waiting source).tail)

/-- Takes every buffer that waits for one of our sources. The channel stays. -/
def drain (t : CorrelationTable) (source : Ssrc) : List Bytes × CorrelationTable :=
  (t.waiting source, t.setQueue source [])

/-- Takes the oldest buffer that went to none of our sources. -/
def popPassthrough (t : CorrelationTable) : Option Bytes × CorrelationTable :=
  (t.passthrough.head?, { t with passthrough := t.passthrough.tail })

/-- Takes every buffer that went to none of our sources. -/
def drainPassthrough (t : CorrelationTable) : List Bytes × CorrelationTable :=
  (t.passthrough, { t with passthrough := [] })

/-- Appends a buffer to the channel of one of our sources, if it has one. -/
def push (t : CorrelationTable) (source : Ssrc) (buffer : Bytes) : CorrelationTable :=
  { t with
    channels := t.channels.map fun c ↦
      if c.source = source then { c with queue := c.queue ++ [buffer] } else c }

/-- Makes sure that one of our sources has a channel. A new channel is announced, and the
listener's bindings follow. -/
def ensureChannel (t : CorrelationTable) (listener : Ssrc → List SsrcBinding) (source : Ssrc) :
    CorrelationTable :=
  if (t.channel? source).isSome then t
  else
    bindAll
      { t with
        channels := t.channels ++ [⟨source, []⟩]
        announced := t.announced ++ [source] }
      (listener source)

/-! ## Routing -/

/-- The source that a remote source is bound to. -/
def via (t : CorrelationTable) (remote : Ssrc) : List Ssrc :=
  ((t.binding? remote).map (·.source)).toList

/-- The binding that a packet teaches. -/
def lesson? : RtcpPacket → Option SsrcBinding
  | .receiverReport r => r.first?.map fun s ↦ ⟨r.sender, s, .receiverReport⟩
  | .intraRequest r => some ⟨r.sender, r.ssrc, .intraRequest⟩
  | .estimate e => e.ssrcs.head?.map fun s ↦ ⟨e.sender, s, .estimate⟩
  | _ => none

/-- The sources that a packet speaks of. -/
def targets (t : CorrelationTable) : RtcpPacket → List Ssrc
  | .receiverReport r =>
    match r.first? with
    | some source => [source]
    | none => t.via r.sender
  | .intraRequest r => [r.ssrc]
  | .estimate e => e.ssrcs
  | .feedback _ _ sender media => if media = 0 then t.via sender else [media]
  | .senderReport sender | .applicationDefined sender | .extendedReport sender => t.via sender
  | .sourceDescription sender | .goodbye sender => (sender.map t.via).getD []
  | .unknown _ => []

def learn (t : CorrelationTable) (p : RtcpPacket) : CorrelationTable :=
  match lesson? p with
  | some b => t.bind b
  | none => t

/-- Adds sources to a list, each once. -/
def addTargets (seen new : List Ssrc) : List Ssrc :=
  new.foldl (fun seen s ↦ if seen.contains s then seen else seen ++ [s]) seen

/-- Learns from packets in order and collects the sources they speak of. Each packet is judged
with what it and the packets before it taught. -/
def resolve (t : CorrelationTable) (seen : List Ssrc) :
    List RtcpPacket → CorrelationTable × List Ssrc
  | [] => (t, seen)
  | p :: ps =>
    let t := t.learn p
    t.resolve (addTargets seen (t.targets p)) ps

/-- Delivers a buffer to our sources in order. -/
def deliver (t : CorrelationTable) (listener : Ssrc → List SsrcBinding) (buffer : Bytes) :
    List Ssrc → CorrelationTable
  | [] => t
  | s :: ss => ((t.ensureChannel listener s).push s buffer).deliver listener buffer ss

def route (t : CorrelationTable) (listener : Ssrc → List SsrcBinding) (buffer : Bytes) :
    RtcpOutcome × CorrelationTable :=
  if t.closed then (.dropped, t)
  else
    match RtcpPacket.readCompound buffer with
    | .error _ => (.dropped, t)
    | .ok packets =>
      let (t, found) := t.resolve [] packets
      if found = [] then (.passthrough, { t with passthrough := t.passthrough ++ [buffer] })
      else (.routed found, t.deliver listener buffer found)

/-- Nobody who listens asks for a binding. -/
def noListener : Ssrc → List SsrcBinding := fun _ ↦ []

end CorrelationTable

end OfferAnswer
