import Mathlib.Data.List.Nodup
import OfferAnswer.Proofs.Sdp.Attributes
import OfferAnswer.Proofs.Session.Describe

/-!
# What the session says in a section

A section gets its lines from a handler, its ports from an endpoint, and the rest from the session:
who it is, how to reach it, and how to trust it. Each of these stages adds under keys of its own, so
what a handler said is still there in the end.

What the session adds is *settled*: in a written section, a name, a credential, a fingerprint or a
setup is that of the session, whatever was copied from the peer before.
-/

namespace OfferAnswer

/-! ## Ports -/

namespace Placement

variable {m : Section} {key : String}

theorem kind_writePorts (e : Endpoint) (m : Section) : (writePorts e m).kind = m.kind := by
  rw [writePorts]
  split <;> rfl

theorem proto_writePorts (e : Endpoint) (m : Section) : (writePorts e m).proto = m.proto := by
  rw [writePorts]
  split <;> rfl

theorem formats_writePorts (e : Endpoint) (m : Section) : (writePorts e m).formats = m.formats := by
  rw [writePorts]
  split <;> rfl

theorem attrsOf_writePorts (h : key ≠ "rtcp") (e : Endpoint) (m : Section) :
    (writePorts e m).attrsOf key = m.attrsOf key := by
  rw [writePorts]
  split
  · exact Section.attrsOf_add_of_ne (Ne.symm h) _
  · exact Section.attrsOf_remove_of_ne (Ne.symm h) _

theorem tidy_writePorts (hm : m.Tidy) (e : Endpoint) : (writePorts e m).Tidy := by
  have hport : Section.Tidy { m with port := e.rtpPort } := hm
  rw [writePorts]
  split
  · exact hport.add _
  · exact hport.remove _

theorem keyed_writePorts (hm : m.Keyed) (e : Endpoint) : (writePorts e m).Keyed := by
  have hport : Section.Keyed { m with port := e.rtpPort } := hm
  rw [writePorts]
  split
  · exact hport.add (show "rtcp" ≠ "" by decide)
  · exact hport.remove _

end Placement

namespace Session

variable {s : Session} {mid : Mid} {setup : Option Setup} {m : Section} {a : Attribute}
  {key : String}

/-! ## The lines of the session -/

/-- The lines of an accepted section that the session settles. -/
def settledLines (s : Session) (mid : Mid) (setup : Option Setup) : List Attribute :=
  midAttr mid :: s.iceAttrs ++ s.dtlsAttrs setup

/-- The keys of those lines, in order. -/
def settledKeys : List String :=
  ["mid", "ice-ufrag", "ice-pwd", "ice-options", "fingerprint", "setup"]

theorem keys_settledLines (s : Session) (mid : Mid) (setup : Option Setup) :
    ((s.settledLines mid setup).map (·.key)).Sublist settledKeys := by
  rw [settledLines, dtlsAttrs.eq_def]
  cases setup with
  | none => exact (by decide : ["mid", "ice-ufrag", "ice-pwd", "ice-options"].Sublist settledKeys)
  | some setup =>
    cases s.config.certificate with
    | none =>
      exact (by decide :
        ["mid", "ice-ufrag", "ice-pwd", "ice-options", "setup"].Sublist settledKeys)
    | some c => exact List.Sublist.refl settledKeys

theorem key_of_mem_settledLines (ha : a ∈ s.settledLines mid setup) : a.key ∈ settledKeys :=
  (keys_settledLines s mid setup).subset (List.mem_map_of_mem ha)

/-- The lines of sources and candidates. -/
def IsOpenLine (a : Attribute) : Prop := a.key = "ssrc" ∨ a.key = "candidate"

theorem addSource_fst_eq (s : Session) (mid : Mid) (m : Section) :
    ∃ more, (∀ a ∈ more, IsOpenLine a) ∧ (s.addSource mid m).1 = m.addAll more := by
  have hnone : ∃ more, (∀ a ∈ more, IsOpenLine a) ∧ m = m.addAll more :=
    ⟨[], fun _ ha ↦ absurd ha List.not_mem_nil, rfl⟩
  rw [addSource]
  split
  · dsimp only
    split
    · refine ⟨[(s.ensureSsrc mid).2.ssrcAttr (s.ensureSsrc mid).1], fun a ha ↦ ?_, rfl⟩
      rw [List.mem_singleton.mp ha]
      exact Or.inl rfl
    · exact hnone
  · exact hnone

/-- An accepted section with the lines that the session settles. -/
def dressed (s : Session) (mid : Mid) (setup : Option Setup) (m : Section) : Section :=
  { m.addAll (s.settledLines mid setup) with
    connection := some (connectionValue s.config.connectionAddress) }

/-- An accepted section gets the lines that the session settles, its source and all candidates. -/
theorem decorate_of_accepted (s : Session) (mid : Mid) (setup : Option Setup)
    (hm : m.isRejected = false) : s.decorate mid setup m =
      ((s.addSource mid (s.dressed mid setup m)).1.addAll (s.candidates.map candidateAttr),
        (s.addSource mid (s.dressed mid setup m)).2) := by
  have hrej : (m.add (midAttr mid)).isRejected = false := hm
  -- the session adds its lines in several goes
  have hdressed : (Section.addAll (Section.addAll { m.add (midAttr mid) with
      connection := some (connectionValue s.config.connectionAddress) } s.iceAttrs)
        (s.dtlsAttrs setup)) = s.dressed mid setup m := by
    rw [dressed, settledLines, Section.addAll_append]
    rfl
  have hcandidates : (s.addSource mid (s.dressed mid setup m)).2.candidates = s.candidates := by
    obtain ⟨ssrcs, e, hsession⟩ := addSource_eq s mid (s.dressed mid setup m)
    rw [hsession]
    rfl
  rw [decorate]
  dsimp only
  rw [hrej, if_neg Bool.false_ne_true, hdressed, hcandidates]

theorem decorate_of_rejected (s : Session) (mid : Mid) (setup : Option Setup)
    (hm : m.isRejected = true) : s.decorate mid setup m = (m.add (midAttr mid), s) := by
  have hrej : (m.add (midAttr mid)).isRejected = true := hm
  rw [decorate]
  dsimp only
  rw [hrej, if_pos rfl]

/-- What is added to an accepted section, once its lines are settled, are sources and candidates. -/
theorem decorate_accepted (s : Session) (mid : Mid) (setup : Option Setup)
    (hm : m.isRejected = false) : ∃ more, (∀ a ∈ more, IsOpenLine a) ∧
      (s.decorate mid setup m).1 = { (m.addAll (s.settledLines mid setup)).addAll more with
        connection := some (connectionValue s.config.connectionAddress) } := by
  obtain ⟨more, hmore, hsource⟩ := addSource_fst_eq s mid (s.dressed mid setup m)
  refine ⟨more ++ s.candidates.map candidateAttr, fun a ha ↦ ?_, ?_⟩
  · rcases List.mem_append.mp ha with ha | ha
    · exact hmore a ha
    · obtain ⟨c, -, rfl⟩ := List.mem_map.mp ha
      exact Or.inr rfl
  · rw [decorate_of_accepted s mid setup hm, hsource, Section.addAll_append]
    rfl

theorem decorate_rejected (s : Session) (mid : Mid) (setup : Option Setup)
    (hm : m.isRejected = true) : (s.decorate mid setup m).1 = m.add (midAttr mid) :=
  congrArg Prod.fst (decorate_of_rejected s mid setup hm)

/-- The keys under which the session adds. -/
def sessionKeys : List String := settledKeys ++ ["ssrc", "candidate"]

theorem IsOpenLine.key_mem (ha : IsOpenLine a) : a.key ∈ sessionKeys := by
  rcases ha with ha | ha
  · rw [ha]
    decide
  · rw [ha]
    decide

/-- Decorating adds lines under those keys, and nothing else but the connection line. -/
theorem decorate_adds (s : Session) (mid : Mid) (setup : Option Setup) (m : Section) :
    ∃ as connection, (∀ a ∈ as, a.key ∈ sessionKeys) ∧
      (s.decorate mid setup m).1 = { m.addAll as with connection := connection } := by
  cases hm : m.isRejected with
  | true =>
    refine ⟨[midAttr mid], m.connection, fun a ha ↦ ?_, decorate_rejected s mid setup hm⟩
    rw [List.mem_singleton.mp ha]
    exact List.mem_cons_self
  | false =>
    obtain ⟨more, hmore, h⟩ := decorate_accepted s mid setup hm
    rw [← Section.addAll_append] at h
    refine ⟨_, _, fun a ha ↦ ?_, h⟩
    rcases List.mem_append.mp ha with ha | ha
    · exact List.mem_append_left _ (key_of_mem_settledLines ha)
    · exact (hmore a ha).key_mem

/-! ## What stays -/

theorem kind_decorate (s : Session) (mid : Mid) (setup : Option Setup) (m : Section) :
    (s.decorate mid setup m).1.kind = m.kind := by
  obtain ⟨_, _, -, h⟩ := decorate_adds s mid setup m
  rw [h]
  rfl

theorem proto_decorate (s : Session) (mid : Mid) (setup : Option Setup) (m : Section) :
    (s.decorate mid setup m).1.proto = m.proto := by
  obtain ⟨_, _, -, h⟩ := decorate_adds s mid setup m
  rw [h]
  rfl

theorem formats_decorate (s : Session) (mid : Mid) (setup : Option Setup) (m : Section) :
    (s.decorate mid setup m).1.formats = m.formats := by
  obtain ⟨_, _, -, h⟩ := decorate_adds s mid setup m
  rw [h]
  rfl

theorem attrsOf_decorate (hkey : key ∉ sessionKeys) (s : Session) (mid : Mid)
    (setup : Option Setup) (m : Section) :
    (s.decorate mid setup m).1.attrsOf key = m.attrsOf key := by
  obtain ⟨as, _, has, h⟩ := decorate_adds s mid setup m
  rw [h]
  refine Section.attrsOf_addAll_of_ne (fun a ha heq ↦ hkey ?_) m
  rw [← heq]
  exact has a ha

theorem keyed_decorate (hm : m.Keyed) (s : Session) (mid : Mid) (setup : Option Setup) :
    (s.decorate mid setup m).1.Keyed := by
  obtain ⟨as, _, has, h⟩ := decorate_adds s mid setup m
  have hkeys : ∀ key ∈ sessionKeys, key ≠ "" := by decide
  rw [h]
  exact hm.addAll fun a ha ↦ hkeys a.key (has a ha)

theorem tidy_decorate (hm : m.Tidy) (s : Session) (mid : Mid) (setup : Option Setup) :
    (s.decorate mid setup m).1.Tidy := by
  obtain ⟨as, _, -, h⟩ := decorate_adds s mid setup m
  rw [h]
  exact hm.addAll as

/-! ## What is settled -/

/-- What the session settles is all that a written section says under that key. -/
theorem attrsOf_settled (hm : m.Tidy) (s : Session) (hrej : m.isRejected = false)
    (ha : a ∈ s.settledLines mid setup) : (s.decorate mid setup m).1.attrsOf a.key = [a] := by
  have hmem := key_of_mem_settledLines ha
  have hsingle : ∀ key ∈ settledKeys, key ∈ Attribute.singleKeys := by decide
  have hopen : ∀ key ∈ settledKeys, key ≠ "ssrc" ∧ key ≠ "candidate" := by decide
  have honly := List.inj_on_of_nodup_map
    ((keys_settledLines s mid setup).nodup (by decide : settledKeys.Nodup))
  obtain ⟨more, hmore, h⟩ := decorate_accepted s mid setup hrej
  rw [h]
  refine (Section.attrsOf_addAll_of_ne (fun b hb heq ↦ ?_) _).trans
    (Section.attrsOf_addAll hm ha (hsingle _ hmem) fun b hb heq ↦ honly hb ha heq)
  rcases hmore b hb with hkey | hkey
  · exact (hopen _ hmem).1 (heq.symm.trans hkey)
  · exact (hopen _ hmem).2 (heq.symm.trans hkey)

theorem attrsOf_mid_decorate (hm : m.Tidy) (s : Session) (mid : Mid) (setup : Option Setup) :
    (s.decorate mid setup m).1.attrsOf "mid" = [midAttr mid] := by
  cases hrej : m.isRejected with
  | true =>
    rw [decorate_rejected s mid setup hrej]
    exact Section.attrsOf_add (a := midAttr mid) hm (show "mid" ∈ Attribute.singleKeys by decide)
  | false => exact attrsOf_settled (a := midAttr mid) hm s hrej List.mem_cons_self

/-- A written section declares its identifier, accepted or not. -/
theorem attr?_mid_decorate (hm : m.Tidy) (s : Session) (mid : Mid) (setup : Option Setup) :
    (s.decorate mid setup m).1.attr? "mid" = some mid.text :=
  Section.attr?_of_attrsOf (a := midAttr mid) (attrsOf_mid_decorate hm s mid setup)

theorem mid?_decorate (hm : m.Tidy) (s : Session) (mid : Mid) (setup : Option Setup) :
    (s.decorate mid setup m).1.mid? = some (.ofText mid.text) := by
  rw [Section.mid?, attr?_mid_decorate hm s mid setup]
  rfl

/-- What a session has written in a section: the identifier, and in an accepted one how to reach and
to trust the session. -/
structure Writes (s : Session) (mid : Mid) (setup : Option Setup) (m : Section) : Prop where
  /-- The identifier. -/
  mid_eq : m.mid? = some (.ofText mid.text)
  /-- The name of the ICE credentials. -/
  ufrag_eq : m.isRejected = false → m.attr? "ice-ufrag" = some s.credentials.ufrag
  /-- Their password. -/
  password_eq : m.isRejected = false → m.attr? "ice-pwd" = some s.credentials.password
  /-- The fingerprint, where the section is secured and we have a certificate. -/
  fingerprint_eq : m.isRejected = false → ∀ v, setup = some v → ∀ c,
    s.config.certificate = some c → m.attr? "fingerprint" = some c.fingerprint.text
  /-- The setup, where the section is secured. -/
  setup_eq : m.isRejected = false → ∀ v, setup = some v → m.attr? "setup" = some v.text

theorem Writes.congr {s' : Session} (h : s.Writes mid setup m)
    (hcredentials : s'.credentials = s.credentials) (hconfig : s'.config = s.config) :
    s'.Writes mid setup m where
  mid_eq := h.mid_eq
  ufrag_eq := hcredentials ▸ h.ufrag_eq
  password_eq := hcredentials ▸ h.password_eq
  fingerprint_eq := hconfig ▸ h.fingerprint_eq
  setup_eq := h.setup_eq

/-- **A decorated section is written by the session**, whatever it said before. -/
theorem writes_decorate (hm : m.Tidy) (s : Session) (mid : Mid) (setup : Option Setup) :
    s.Writes mid setup (s.decorate mid setup m).1 := by
  -- a settled line is the only one under its key
  have hsettled : ∀ a ∈ s.settledLines mid setup, (s.decorate mid setup m).1.isRejected = false →
      (s.decorate mid setup m).1.attr? a.key = some a.content := by
    intro a ha hrej
    rw [Section.isRejected, port_decorate] at hrej
    exact Section.attr?_of_attrsOf (attrsOf_settled hm s hrej ha)
  have hice : ∀ a ∈ s.iceAttrs, a ∈ s.settledLines mid setup := fun a ha ↦
    List.mem_append_left _ (List.mem_cons_of_mem _ ha)
  have hdtls : ∀ a ∈ s.dtlsAttrs setup, a ∈ s.settledLines mid setup := fun a ha ↦
    List.mem_append_right _ ha
  refine ⟨mid?_decorate hm s mid setup, ?_, ?_, ?_, ?_⟩
  · exact hsettled _ (hice (.of "ice-ufrag" s.credentials.ufrag) List.mem_cons_self)
  · exact hsettled _ (hice (.of "ice-pwd" s.credentials.password)
      (List.mem_cons_of_mem _ List.mem_cons_self))
  · intro hrej v hv c hc
    subst hv
    refine hsettled (.of "fingerprint" c.fingerprint.text) (hdtls _ ?_) hrej
    refine List.mem_append_left _ ?_
    rw [hc]
    exact List.mem_cons_self
  · intro hrej v hv
    subst hv
    exact hsettled (.of "setup" v.text)
      (hdtls _ (List.mem_append_right _ List.mem_cons_self)) hrej

end Session

end OfferAnswer
