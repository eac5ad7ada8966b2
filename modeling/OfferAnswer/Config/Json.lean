import OfferAnswer.Config.Basic
import OfferAnswer.Json.Decode
import OfferAnswer.Json.Reader

/-!
# Configurations in JSON

Writing gives every field. Reading takes every field of the configuration itself as optional, with
its default; the parts that a field is made of must be whole, codecs aside.

A handler is told by its `type`, which may stand anywhere among its members, so a handler is read
as a whole before it is taken apart. What is kept in this way must be plain, unlike members that
are passed over, and may be nested only so deep; in return a choice inside it may also have an
empty object for a value.
-/

namespace OfferAnswer

/-! ## Codecs -/

namespace Codec

def toJson (c : Codec) : Json :=
  .obj [("pt", .nat c.pt.toNat), ("name", .str c.name), ("clock_rate", .nat c.clockRate.toNat),
    ("channels", .opt (fun n ↦ .nat n.toNat) c.channels), ("fmtp", .opt .str c.fmtp),
    ("feedback", .array (c.feedback.map .str))]

def ofJson? (v : Json) : Option Codec := do
  let fields ← v.toFields? ["pt", "name", "clock_rate", "channels", "fmtp", "feedback"]
  match fields with
  | [pt, name, clockRate, channels, fmtp, feedback] =>
    return {
      pt := ← Json.required Json.toUInt8? pt
      name := ← Json.required Json.toText? name
      clockRate := ← Json.required Json.toUInt32? clockRate
      channels := ← Json.orDefault none (Json.toOption? Json.toUInt8?) channels
      fmtp := ← Json.orDefault none (Json.toOption? Json.toText?) fmtp
      feedback := ← Json.orDefault [] (Json.toList? Json.toText?) feedback }
  | _ => none

end Codec

/-! ## Parts -/

namespace PortRange

def toJson (r : PortRange) : Json := .obj [("min", .nat r.min.toNat), ("max", .nat r.max.toNat)]

def ofJson? (v : Json) : Option PortRange := do
  match ← v.toFields? ["min", "max"] with
  | [min, max] =>
    return ⟨← Json.required Json.toUInt16? min, ← Json.required Json.toUInt16? max⟩
  | _ => none

end PortRange

namespace BundlePolicy

def name : BundlePolicy → String
  | none => "none"
  | maxBundle => "max-bundle"

def ofName? (s : String) : Option BundlePolicy :=
  if s = "none" then some none else if s = "max-bundle" then some maxBundle else Option.none

end BundlePolicy

namespace IceCredentials

def toJson (c : IceCredentials) : Json := .obj [("ufrag", .str c.ufrag), ("pass", .str c.password)]

def ofJson? (v : Json) : Option IceCredentials := do
  match ← v.toFields? ["ufrag", "pass"] with
  | [ufrag, password] =>
    return ⟨← Json.required Json.toText? ufrag, ← Json.required Json.toText? password⟩
  | _ => none

end IceCredentials

namespace Fingerprint

def toJson (f : Fingerprint) : Json :=
  .obj [("hash_func", .str f.hash), ("bytes", .array (f.bytes.map fun b ↦ .nat b.toNat))]

def ofJson? (v : Json) : Option Fingerprint := do
  match ← v.toFields? ["hash_func", "bytes"] with
  | [hash, bytes] =>
    return ⟨← Json.required Json.toText? hash,
      ← Json.required (Json.toList? Json.toUInt8?) bytes⟩
  | _ => none

end Fingerprint

namespace DtlsCertificate

def toJson (c : DtlsCertificate) : Json :=
  .obj [("pem", .str c.pem), ("fingerprint", c.fingerprint.toJson)]

def ofJson? (v : Json) : Option DtlsCertificate := do
  match ← v.toFields? ["pem", "fingerprint"] with
  | [pem, fingerprint] =>
    return ⟨← Json.required Json.toText? pem, ← Json.required Fingerprint.ofJson? fingerprint⟩
  | _ => none

end DtlsCertificate

/-! ## Handlers -/

namespace RtpConfig

/-- The members of the settings of an audio or video handler. -/
def members (c : RtpConfig) : List (String × Json) :=
  [("profile", .str c.profile.name), ("codecs", .array (c.codecs.map Codec.toJson)),
    ("direction", .str c.direction.key)]

def ofJson? (v : Json) : Option RtpConfig := do
  match ← v.toFields? ["profile", "codecs", "direction"] with
  | [profile, codecs, direction] =>
    return {
      profile := ← Json.required (Json.toChoice? Json.isVoid RtpProfile.ofName?) profile
      codecs := ← Json.required (Json.toList? Codec.ofJson?) codecs
      direction := ← Json.required (Json.toChoice? Json.isVoid Direction.ofKey?) direction }
  | _ => none

end RtpConfig

namespace SctpConfig

/-- The members of the settings of a data channel handler. -/
def members (c : SctpConfig) : List (String × Json) :=
  [("port", .nat c.port.toNat), ("max_message_size", .nat c.maxMessageSize.toNat)]

def ofJson? (v : Json) : Option SctpConfig := do
  match ← v.toFields? ["port", "max_message_size"] with
  | [port, size] =>
    return ⟨← Json.required Json.toUInt16? port, ← Json.required Json.toUInt32? size⟩
  | _ => none

end SctpConfig

namespace HandlerConfig

/-- How deep a handler may be nested, in a configuration that nests it twice itself. -/
def maxDepth : Nat := 125

def toJson : HandlerConfig → Json
  | audio c => .obj (("type", .str "audio") :: c.members)
  | video c => .obj (("type", .str "video") :: c.members)
  | sctp c => .obj (("type", .str "sctp") :: c.members)

/-- The type of a JSON form, and the form without it. -/
def split? : Json → Option (Json × Json)
  | .array (type :: rest) => some (type, .array rest)
  | .object members =>
    if (members.filter (·.1 == some "type")).length = 1 then
      (Json.member? "type" members).map fun type ↦
        (type, .object (members.filter (·.1 != some "type")))
    else none
  | _ => none

def ofJson? (v : Json) : Option HandlerConfig := do
  if !v.isPlain || maxDepth < v.depth then none
  let (type, rest) ← split? v
  match type with
  | .string (some "audio") => (RtpConfig.ofJson? rest).map audio
  | .string (some "video") => (RtpConfig.ofJson? rest).map video
  | .string (some "sctp") => (SctpConfig.ofJson? rest).map sctp
  | _ => none

end HandlerConfig

/-! ## Configurations -/

namespace SessionConfig

/-- The members of the JSON form of a configuration. -/
def members (c : SessionConfig) : List (String × Json) :=
  [("port_range", c.portRange.toJson), ("bundle_policy", .str c.bundlePolicy.name),
    ("rtcp_mux", .bool c.rtcpMux), ("ice_lite", .bool c.iceLite),
    ("local_ice_credentials", .opt IceCredentials.toJson c.credentials),
    ("dtls_cert", .opt DtlsCertificate.toJson c.certificate),
    ("answer_setup", .str c.answerSetup.text),
    ("connection_address", .str c.connectionAddress.text),
    ("handlers", .array (c.handlers.map HandlerConfig.toJson))]

def toJson (c : SessionConfig) : Json := .obj c.members

/-- The names of the fields of a configuration, in order. -/
def fieldNames : List String :=
  ["port_range", "bundle_policy", "rtcp_mux", "ice_lite", "local_ice_credentials", "dtls_cert",
    "answer_setup", "connection_address", "handlers"]

def ofJson? (v : Json) : Option SessionConfig := do
  let c : SessionConfig := {}
  match ← v.toFields? fieldNames with
  | [range, bundle, mux, lite, credentials, certificate, setup, address, handlers] =>
    return {
      portRange := ← Json.orDefault c.portRange PortRange.ofJson? range
      bundlePolicy := ← Json.orDefault c.bundlePolicy
        (Json.toChoice? Json.isNull BundlePolicy.ofName?) bundle
      rtcpMux := ← Json.orDefault c.rtcpMux Json.toBool? mux
      iceLite := ← Json.orDefault c.iceLite Json.toBool? lite
      credentials := ← Json.orDefault c.credentials
        (Json.toOption? IceCredentials.ofJson?) credentials
      certificate := ← Json.orDefault c.certificate
        (Json.toOption? DtlsCertificate.ofJson?) certificate
      answerSetup := ← Json.orDefault c.answerSetup
        (Json.toChoice? Json.isNull Setup.ofText?) setup
      connectionAddress := ← Json.orDefault c.connectionAddress
        (fun v ↦ v.toText?.bind IpAddress.ofText?) address
      handlers := ← Json.orDefault c.handlers (Json.toList? HandlerConfig.ofJson?) handlers }
  | _ => none

/-- The configuration of a JSON text. -/
def ofText? (s : String) : Option SessionConfig := (Json.ofText? s).bind ofJson?

end SessionConfig

end OfferAnswer
