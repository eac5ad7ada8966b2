/-!
# Internet addresses

Addresses of both families and the address of a socket. An IPv6 address is eight groups of 16
bits; an IPv4 address is four bytes. The same IPv6 address may be used in several zones, on
different links say; only a socket address tells which one is meant.
-/

namespace OfferAnswer

/-- An IPv4 address. -/
structure Ipv4 where
  /-- The first byte. -/
  a : UInt8
  /-- The second byte. -/
  b : UInt8
  /-- The third byte. -/
  c : UInt8
  /-- The last byte. -/
  d : UInt8
deriving DecidableEq, Repr, Hashable

/-- An IPv6 address: eight groups of 16 bits. -/
structure Ipv6 where
  /-- The groups, in the order written. -/
  groups : List UInt16
  /-- There are eight of them. -/
  length_eq : groups.length = 8
deriving DecidableEq, Repr, Hashable

/-- An address of either family. -/
inductive IpAddress where
  | v4 (address : Ipv4)
  | v6 (address : Ipv6)
deriving DecidableEq, Repr, Hashable

/-- An address and a port, and for an IPv6 address the zone that it is meant in. -/
structure SocketAddress where
  ip : IpAddress
  port : UInt16
  /-- The number of the zone; zero for none, and for every IPv4 address. -/
  zone : UInt32 := 0
deriving DecidableEq, Repr

namespace Ipv4

/-- The address `0.0.0.0`. -/
def unspecified : Ipv4 := ⟨0, 0, 0, 0⟩

/-- The two groups that hold the address inside an IPv6 address. -/
def groups (x : Ipv4) : List UInt16 :=
  [UInt16.ofNat (x.a.toNat * 256 + x.b.toNat), UInt16.ofNat (x.c.toNat * 256 + x.d.toNat)]

/-- An address at which a peer can be reached: not link-local, broadcast, multicast or
unspecified. -/
def isReachable (x : Ipv4) : Bool :=
  !(x.a == 169 && x.b == 254) && x != ⟨255, 255, 255, 255⟩ &&
    !(224 ≤ x.a && x.a ≤ 239) && x != unspecified

end Ipv4

namespace Ipv6

/-- The address of groups that come first and last, with zeros between them. -/
def ofEnds? (front back : List UInt16) : Option Ipv6 :=
  let gs := front ++ List.replicate (8 - front.length - back.length) 0 ++ back
  if h : gs.length = 8 then some ⟨gs, h⟩ else none

/-- The IPv4 address that an IPv4-mapped address stands for. -/
def mapped? (x : Ipv6) : Option Ipv4 :=
  match x.groups with
  | [0, 0, 0, 0, 0, 0xFFFF, g, h] =>
    some ⟨UInt8.ofNat (g.toNat / 256), UInt8.ofNat (g.toNat % 256),
      UInt8.ofNat (h.toNat / 256), UInt8.ofNat (h.toNat % 256)⟩
  | _ => none

/-- An address at which a peer can be reached: not multicast or unspecified. -/
def isReachable (x : Ipv6) : Bool :=
  x.groups.head?.any (· < 0xFF00) && x.groups.any (· ≠ 0)

end Ipv6

/-- Whether a peer can be reached at the address. -/
def IpAddress.isReachable : IpAddress → Bool
  | v4 x => x.isReachable
  | v6 x => x.isReachable

end OfferAnswer
