import OfferAnswer.Config.Json
import OfferAnswer.Json.Writer
import OfferAnswer.Proofs.Ip.RoundTrip
import OfferAnswer.Proofs.Json.Decode
import OfferAnswer.Proofs.Sdp.Attributes
import OfferAnswer.Proofs.Sdp.Descriptions

/-!
# Configurations are read back

A configuration is written down with all its fields and read back as it was, whatever its values
are: `SessionConfig.check` has no say in it. Of the members of the whole configuration any may be
left out, and then the fields that they stand for have their defaults.

Every part has two lemmas. One reads its JSON form back, which is the lemma about records with the
readers of its fields. The other says that the form `Fits`. For a handler both are needed at once:
it is kept before its type is known, so its form must be plain and not nested too deep.
-/

namespace OfferAnswer

open Json (toFields?_obj toList?_array toOption?_opt toText?_str toUInt8?_nat toUInt16?_nat
  toUInt32?_nat Fits)

/-! ## Parts -/

namespace Codec

theorem ofJson?_toJson (c : Codec) : ofJson? c.toJson = some c := by
  have hfields : c.toJson.toFields? ["pt", "name", "clock_rate", "channels", "fmtp", "feedback"] =
      some [some (.nat c.pt.toNat), some (.str c.name), some (.nat c.clockRate.toNat),
        some (.opt (fun n ↦ .nat n.toNat) c.channels), some (.opt .str c.fmtp),
        some (.array (c.feedback.map .str))] := toFields?_obj rfl (by decide)
  have hchannels := toOption?_opt toUInt8?_nat (fun _ ↦ rfl) c.channels
  have hfmtp := toOption?_opt toText?_str (fun _ ↦ rfl) c.fmtp
  have hfeedback := toList?_array fun s (_ : s ∈ c.feedback) ↦ toText?_str s
  rw [ofJson?, hfields]
  simp only [Option.bind_eq_bind, Option.bind_some, Json.required, Json.orDefault, toUInt8?_nat,
    toText?_str, toUInt32?_nat, hchannels, hfmtp, hfeedback]
  rfl

theorem fits_toJson (c : Codec) : Fits 2 c.toJson := by
  refine Fits.obj ?_
  simp only [List.forall_mem_cons]
  exact ⟨.uint8 c.pt, .str c.name, .uint32 c.clockRate, .opt .uint8 c.channels, .opt .str c.fmtp,
    .array fun s _ ↦ .str s, nofun⟩

end Codec

namespace PortRange

theorem ofJson?_toJson (r : PortRange) : ofJson? r.toJson = some r := by
  have hfields : r.toJson.toFields? ["min", "max"] =
      some [some (.nat r.min.toNat), some (.nat r.max.toNat)] := toFields?_obj rfl (by decide)
  rw [ofJson?, hfields]
  simp only [Option.bind_eq_bind, Option.bind_some, Json.required, toUInt16?_nat]
  rfl

theorem fits_toJson (r : PortRange) : Fits 1 r.toJson := by
  refine Fits.obj ?_
  simp only [List.forall_mem_cons]
  exact ⟨.uint16 r.min, .uint16 r.max, nofun⟩

end PortRange

theorem BundlePolicy.ofName?_name (p : BundlePolicy) : ofName? p.name = some p := by
  rcases p with _ | _ <;> decide

namespace IceCredentials

theorem ofJson?_toJson (c : IceCredentials) : ofJson? c.toJson = some c := by
  have hfields : c.toJson.toFields? ["ufrag", "pass"] =
      some [some (.str c.ufrag), some (.str c.password)] := toFields?_obj rfl (by decide)
  rw [ofJson?, hfields]
  simp only [Option.bind_eq_bind, Option.bind_some, Json.required, toText?_str]
  rfl

theorem fits_toJson (c : IceCredentials) : Fits 1 c.toJson := by
  refine Fits.obj ?_
  simp only [List.forall_mem_cons]
  exact ⟨.str c.ufrag, .str c.password, nofun⟩

end IceCredentials

namespace Fingerprint

theorem ofJson?_toJson (f : Fingerprint) : ofJson? f.toJson = some f := by
  have hfields : f.toJson.toFields? ["hash_func", "bytes"] =
      some [some (.str f.hash), some (.array (f.bytes.map fun b ↦ .nat b.toNat))] :=
    toFields?_obj rfl (by decide)
  have hbytes := toList?_array fun b (_ : b ∈ f.bytes) ↦ toUInt8?_nat b
  rw [ofJson?, hfields]
  simp only [Option.bind_eq_bind, Option.bind_some, Json.required, toText?_str, hbytes]
  rfl

theorem fits_toJson (f : Fingerprint) : Fits 2 f.toJson := by
  refine Fits.obj ?_
  simp only [List.forall_mem_cons]
  exact ⟨.str f.hash, .array fun b _ ↦ .uint8 b, nofun⟩

end Fingerprint

namespace DtlsCertificate

theorem ofJson?_toJson (c : DtlsCertificate) : ofJson? c.toJson = some c := by
  have hfields : c.toJson.toFields? ["pem", "fingerprint"] =
      some [some (.str c.pem), some c.fingerprint.toJson] := toFields?_obj rfl (by decide)
  rw [ofJson?, hfields]
  simp only [Option.bind_eq_bind, Option.bind_some, Json.required, toText?_str,
    Fingerprint.ofJson?_toJson]
  rfl

theorem fits_toJson (c : DtlsCertificate) : Fits 3 c.toJson := by
  refine Fits.obj ?_
  simp only [List.forall_mem_cons]
  exact ⟨.str c.pem, c.fingerprint.fits_toJson, nofun⟩

end DtlsCertificate

/-! ## Handlers -/

theorem RtpProfile.ofName?_name (p : RtpProfile) : ofName? p.name = some p := by
  rcases p with _ | _ | _ | _ <;> decide

namespace RtpConfig

theorem ofJson?_members (c : RtpConfig) : ofJson? (.obj c.members) = some c := by
  have hfields : (Json.obj c.members).toFields? ["profile", "codecs", "direction"] =
      some [some (.str c.profile.name), some (.array (c.codecs.map Codec.toJson)),
        some (.str c.direction.key)] := toFields?_obj rfl (by decide)
  have hprofile : Json.toChoice? Json.isVoid RtpProfile.ofName? (.str c.profile.name) =
      some c.profile := c.profile.ofName?_name
  have hcodecs := toList?_array fun x (_ : x ∈ c.codecs) ↦ x.ofJson?_toJson
  have hdirection : Json.toChoice? Json.isVoid Direction.ofKey? (.str c.direction.key) =
      some c.direction := Section.ofKey?_key c.direction
  rw [ofJson?, hfields]
  simp only [Option.bind_eq_bind, Option.bind_some, Json.required, hprofile, hcodecs, hdirection]
  rfl

theorem fits_members (c : RtpConfig) : ∀ m ∈ c.members, Fits 3 m.2 := by
  simp only [members, List.forall_mem_cons]
  exact ⟨.str c.profile.name, .array fun x _ ↦ x.fits_toJson, .str c.direction.key, nofun⟩

end RtpConfig

namespace SctpConfig

theorem ofJson?_members (c : SctpConfig) : ofJson? (.obj c.members) = some c := by
  have hfields : (Json.obj c.members).toFields? ["port", "max_message_size"] =
      some [some (.nat c.port.toNat), some (.nat c.maxMessageSize.toNat)] :=
    toFields?_obj rfl (by decide)
  rw [ofJson?, hfields]
  simp only [Option.bind_eq_bind, Option.bind_some, Json.required, toUInt16?_nat, toUInt32?_nat]
  rfl

theorem fits_members (c : SctpConfig) : ∀ m ∈ c.members, Fits 3 m.2 := by
  simp only [members, List.forall_mem_cons]
  exact ⟨.uint16 c.port, .uint32 c.maxMessageSize, nofun⟩

end SctpConfig

namespace HandlerConfig

/-- The type is told apart from settings that have no member of its name. -/
theorem split?_obj (type : Json) (ms : List (String × Json)) (hms : ∀ m ∈ ms, m.1 ≠ "type") :
    split? (.obj (("type", type) :: ms)) = some (type, .obj ms) := by
  have hothers : (ms.map fun m ↦ (some m.1, m.2)).filter (·.1 == some "type") = [] := by
    refine List.filter_eq_nil_iff.mpr fun x hx ↦ ?_
    obtain ⟨m, hm, rfl⟩ := List.mem_map.mp hx
    simpa using hms m hm
  have hrest : (ms.map fun m ↦ (some m.1, m.2)).filter (·.1 != some "type") =
      ms.map fun m ↦ (some m.1, m.2) := by
    refine List.filter_eq_self.mpr fun x hx ↦ ?_
    obtain ⟨m, hm, rfl⟩ := List.mem_map.mp hx
    simpa using hms m hm
  rw [Json.obj_eq, split?, List.map_cons, List.filter_cons_of_pos (by simp), hothers,
    List.filter_cons_of_neg (by simp), hrest]
  rfl

theorem fits_toJson (c : HandlerConfig) : Fits 4 c.toJson := by
  rcases c with c | c | c
  · exact Fits.obj (List.forall_mem_cons.mpr ⟨.str _, c.fits_members⟩)
  · exact Fits.obj (List.forall_mem_cons.mpr ⟨.str _, c.fits_members⟩)
  · exact Fits.obj (List.forall_mem_cons.mpr ⟨.str _, c.fits_members⟩)

theorem ofJson?_toJson (c : HandlerConfig) : ofJson? c.toJson = some c := by
  have hkept : (!c.toJson.isPlain || decide (maxDepth < c.toJson.depth)) = false := by
    rw [c.fits_toJson.isPlain, Bool.not_true, Bool.false_or, decide_eq_false_iff_not]
    exact Nat.not_lt.mpr (Nat.le_trans c.fits_toJson.depth_le (by decide))
  rw [ofJson?, hkept]
  rcases c with c | c | c
  · have hsplit := split?_obj (.str "audio") c.members (by simp [RtpConfig.members])
    rw [toJson, hsplit]
    exact congrArg (Option.map audio) c.ofJson?_members
  · have hsplit := split?_obj (.str "video") c.members (by simp [RtpConfig.members])
    rw [toJson, hsplit]
    exact congrArg (Option.map video) c.ofJson?_members
  · have hsplit := split?_obj (.str "sctp") c.members (by simp [SctpConfig.members])
    rw [toJson, hsplit]
    exact congrArg (Option.map sctp) c.ofJson?_members

end HandlerConfig

/-! ## Configurations -/

namespace SessionConfig

/-- The configuration with its defaults for the fields that are not kept. -/
def keep (kept : String → Bool) (c : SessionConfig) : SessionConfig :=
  let d : SessionConfig := {}
  { portRange := if kept "port_range" then c.portRange else d.portRange
    bundlePolicy := if kept "bundle_policy" then c.bundlePolicy else d.bundlePolicy
    rtcpMux := if kept "rtcp_mux" then c.rtcpMux else d.rtcpMux
    iceLite := if kept "ice_lite" then c.iceLite else d.iceLite
    credentials := if kept "local_ice_credentials" then c.credentials else d.credentials
    certificate := if kept "dtls_cert" then c.certificate else d.certificate
    answerSetup := if kept "answer_setup" then c.answerSetup else d.answerSetup
    connectionAddress :=
      if kept "connection_address" then c.connectionAddress else d.connectionAddress
    handlers := if kept "handlers" then c.handlers else d.handlers }

theorem writable_members (c : SessionConfig) : ∀ m ∈ c.members, m.2.Writable := by
  simp only [members, List.forall_mem_cons]
  exact ⟨c.portRange.fits_toJson.writable, .str c.bundlePolicy.name, .bool c.rtcpMux,
    .bool c.iceLite, (Fits.opt IceCredentials.fits_toJson c.credentials).writable,
    (Fits.opt DtlsCertificate.fits_toJson c.certificate).writable, .str c.answerSetup.text,
    .str c.connectionAddress.text,
    (Fits.array fun h (_ : h ∈ c.handlers) ↦ h.fits_toJson).writable, nofun⟩

theorem ofJson?_filter (c : SessionConfig) (kept : String → Bool) :
    ofJson? (.obj (c.members.filter fun m ↦ kept m.1)) = some (c.keep kept) := by
  have hnames : (c.members.map (·.1)).Nodup := show fieldNames.Nodup by decide
  have hfields : (Json.obj (c.members.filter fun m ↦ kept m.1)).toFields? fieldNames =
      some (c.members.map fun m ↦ if kept m.1 then some m.2 else none) :=
    Json.toFields?_filter hnames kept
  have hbundle : Json.toChoice? Json.isNull BundlePolicy.ofName? (.str c.bundlePolicy.name) =
      some c.bundlePolicy := c.bundlePolicy.ofName?_name
  have hcredentials := toOption?_opt IceCredentials.ofJson?_toJson (fun _ ↦ rfl) c.credentials
  have hcertificate := toOption?_opt DtlsCertificate.ofJson?_toJson (fun _ ↦ rfl) c.certificate
  have hsetup : Json.toChoice? Json.isNull Setup.ofText? (.str c.answerSetup.text) =
      some c.answerSetup := Description.ofText?_text c.answerSetup
  have haddress (default : IpAddress) : Json.orDefault default
      (fun v ↦ v.toText?.bind IpAddress.ofText?)
      (if kept "connection_address" then some (.str c.connectionAddress.text) else none) =
      some (if kept "connection_address" then c.connectionAddress else default) :=
    Json.orDefault_ite c.connectionAddress.ofText?_text _ default
  have hhandlers := toList?_array fun x (_ : x ∈ c.handlers) ↦ x.ofJson?_toJson
  rw [ofJson?, hfields]
  simp only [members, List.map_cons, List.map_nil, Option.bind_eq_bind, Option.bind_some,
    Json.orDefault_ite c.portRange.ofJson?_toJson, Json.orDefault_ite hbundle,
    Json.orDefault_ite (Json.toBool?_bool _), Json.orDefault_ite hcredentials,
    Json.orDefault_ite hcertificate, Json.orDefault_ite hsetup,
    haddress, Json.orDefault_ite hhandlers]
  rfl

/-- **A configuration is read back.** Whatever its values are, its JSON text gives the configuration
again; and when any of the members are left out of the text, it gives the same with the defaults in
their place. -/
theorem json_round_trip (c : SessionConfig) : ofText? c.toJson.text = some c ∧
    ∀ kept : String → Bool,
      ofText? (Json.obj (c.members.filter fun m ↦ kept m.1)).text = some (c.keep kept) := by
  have hread : ∀ kept : String → Bool,
      ofText? (Json.obj (c.members.filter fun m ↦ kept m.1)).text = some (c.keep kept) := by
    intro kept
    have hwritable : (Json.obj (c.members.filter fun m ↦ kept m.1)).Writable :=
      .obj fun m hm ↦ c.writable_members m (List.mem_of_mem_filter hm)
    rw [ofText?, Json.ofText?_text hwritable, Option.bind_some, c.ofJson?_filter kept]
  refine ⟨?_, hread⟩
  have hall := hread fun _ ↦ true
  rwa [List.filter_true] at hall

end SessionConfig

end OfferAnswer
