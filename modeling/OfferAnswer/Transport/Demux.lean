import OfferAnswer.Mid
import OfferAnswer.Rtcp.Header

/-!
# Demultiplexing

Which section an RTP packet belongs to, on an endpoint that carries several. The source decides,
and if it is not known, the payload type. The latest word on a source counts; of sections that
share a payload type the first one keeps it.
-/

namespace OfferAnswer

/-- The sections of the sources and payload types of an endpoint. -/
structure Demux where
  /-- The section of a source, one for each source. -/
  bySsrc : List (Ssrc × Mid) := []
  /-- The section of a payload type, one for each payload type. -/
  byType : List (PayloadType × Mid) := []
deriving DecidableEq

namespace Demux

def ofSsrc? (d : Demux) (ssrc : Ssrc) : Option Mid :=
  (d.bySsrc.find? (·.1 == ssrc)).map (·.2)

def ofType? (d : Demux) (pt : PayloadType) : Option Mid :=
  (d.byType.find? (·.1 == pt)).map (·.2)

/-- Gives a source to a section, and takes it from any other. -/
def addSsrc (d : Demux) (ssrc : Ssrc) (mid : Mid) : Demux :=
  { d with bySsrc := d.bySsrc.filter (·.1 != ssrc) ++ [(ssrc, mid)] }

/-- Takes a source from a section, if it is that section's. -/
def removeSsrc (d : Demux) (ssrc : Ssrc) (mid : Mid) : Demux :=
  if d.ofSsrc? ssrc = some mid then { d with bySsrc := d.bySsrc.filter (·.1 != ssrc) } else d

/-- Gives a payload type to a section, unless a section has it. -/
def addType (d : Demux) (pt : PayloadType) (mid : Mid) : Demux :=
  if (d.ofType? pt).isSome then d else { d with byType := d.byType ++ [(pt, mid)] }

/-- Takes everything from a section. -/
def removeMid (d : Demux) (mid : Mid) : Demux where
  bySsrc := d.bySsrc.filter (·.2 != mid)
  byType := d.byType.filter (·.2 != mid)

/-- Whether no source and no payload type has a section. -/
def isEmpty (d : Demux) : Bool := d.bySsrc.isEmpty && d.byType.isEmpty

/-- Whether a buffer is an RTP packet: long enough, of version 2, and not RTCP on the same port. -/
def isRtp (buffer : Bytes) : Bool :=
  12 ≤ buffer.length && buffer.getD 0 0 >>> 6 == 2 && !RtcpHeader.isRtcpType (buffer.getD 1 0)

def ssrcOf (buffer : Bytes) : Ssrc := Bytes.wordAt buffer 8

def typeOf (buffer : Bytes) : PayloadType := buffer.getD 1 0 &&& 0x7F

/-- The section of a packet, if it can be told. -/
def route (d : Demux) (buffer : Bytes) : Option Mid :=
  if isRtp buffer then (d.ofSsrc? (ssrcOf buffer)).or (d.ofType? (typeOf buffer)) else none

end Demux

end OfferAnswer
