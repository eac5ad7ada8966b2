import OfferAnswer.Proofs.Handler.Unsigned
import OfferAnswer.Proofs.Session.Bundling
import OfferAnswer.Proofs.Session.Carriage
import OfferAnswer.Proofs.Session.Holding
import OfferAnswer.Proofs.Session.Listening
import OfferAnswer.Proofs.Session.Versions

/-!
# What a description says of its session

Handlers leave it to the session to say who it is, and placing a section adds nothing but ports. So
each written section is an unsigned one that the session has signed, and what stands in it under the
keys of identity is read off the lines that the session adds. The peer has no part in it, whatever
it has offered.

All of this is settled when a description is written, except for sources. A session has one for each
identifier, and an answer is committed after it is written: if a rejected section has the identifier
of an accepted one, the source that the answer declares is given up with it, and another is drawn.
`Owns` says what can be said without conditions: the source was the session's there, or it was drawn
for the description.
-/

namespace OfferAnswer

open Section (IsNeutral)

/-- Whether a section says once what may be said once: under the keys for single values, about its
direction, and about its name, which it cannot do without. -/
structure Section.Single (m : Section) : Prop where
  /-- A key for a single value stands once at most. -/
  tidy : m.Tidy
  /-- So does a direction. -/
  directions_le : m.directions.length ≤ 1
  /-- The name stands once. -/
  length_mid : (m.attrsOf "mid").length = 1

/-! ## Unsigned sections -/

namespace Placement

variable {b : TransportBinding} {q r : Planned} {m : Section} {refuse : Section → Section}

theorem unsigned_writePorts (hm : m.Unsigned) (e : Endpoint) : (writePorts e m).Unsigned := by
  have hport : Section.Unsigned { m with port := e.rtpPort } :=
    ⟨hm.tidy, hm.directions_le, hm.silent⟩
  rw [writePorts]
  split
  · exact hport.add (show IsNeutral "rtcp" by decide)
  · exact hport.remove "rtcp"

theorem Fate.unsigned (h : Fate b q refuse r) (hq : q.body.Unsigned)
    (hrefuse : (refuse q.body).Unsigned) : r.body.Unsigned := by
  cases h with
  | rejected _ => exact hq
  | carried _ _ _ => exact unsigned_writePorts hq _
  | refused _ => exact hrefuse

end Placement

namespace Session

variable {s s' : Session} {mid mid' : Mid} {setup : Option Setup} {m written : Section}
  {a : Attribute} {v : Ssrc} {n k : Nat}

theorem unsigned_planAnswer {remote : Description} {i : Nat} {q : Planned}
    (h : s.planAnswer remote i m = .ok q) : q.body.Unsigned := by
  rcases planAnswer_cases h with ⟨_, rfl⟩ | ⟨_, _, _, -, -, -, ha, rfl⟩
  · exact Section.unsigned_rejected m
  · exact MediaHandler.unsigned_createAnswer ha

/-! ## Signing -/

theorem signed_eq (hrej : m.isRejected = false) (h : s.decorate mid setup m = (written, s)) :
    ∃ sources connection, (∀ a ∈ sources, ∃ v, s.ssrc? mid = some v ∧ a = s.ssrcAttr v) ∧
      written = { ((m.addAll (s.settledLines mid setup)).addAll sources).addAll
        (s.candidates.map candidateAttr) with connection := connection } := by
  rw [decorate_of_accepted s mid setup hrej, Prod.mk.injEq] at h
  obtain ⟨rfl, hsession⟩ := h
  rw [addSource] at hsession ⊢
  split
  · rename_i hmedia
    rw [if_pos hmedia] at hsession
    -- no source was drawn, so it is the one that the section has
    have hsource := ssrc?_ensureSsrc s mid
    change (s.ensureSsrc mid).2 = s at hsession
    rw [hsession] at hsource
    rw [ensureSsrc_of_some hsource]
    dsimp only
    split
    · refine ⟨[s.ssrcAttr (s.ensureSsrc mid).1], _, fun a ha ↦ ?_, rfl⟩
      exact ⟨_, hsource, List.mem_singleton.mp ha⟩
    · exact ⟨[], _, fun _ ha ↦ absurd ha List.not_mem_nil, rfl⟩
  · exact ⟨[], _, fun _ ha ↦ absurd ha List.not_mem_nil, rfl⟩

/-- Under a key of identity, a signed section has what the session adds, and nothing else. -/
theorem mem_signed (hm : m.Unsigned) (hrej : m.isRejected = false)
    (h : s.decorate mid setup m = (written, s)) {key : String}
    (hkey : key ∈ Section.identityKeys) (ha : a ∈ written.attrsOf key) :
    a ∈ s.settledLines mid setup ∨ (∃ v, s.ssrc? mid = some v ∧ a = s.ssrcAttr v) ∨
      a ∈ s.candidates.map candidateAttr := by
  obtain ⟨sources, connection, hsources, rfl⟩ := signed_eq hrej h
  obtain ⟨hmem, hakey⟩ := List.mem_filter.mp ha
  rcases Section.mem_addAll hmem with hcandidate | hmem
  · exact .inr (.inr hcandidate)
  rcases Section.mem_addAll hmem with hsource | hmem
  · exact .inr (.inl (hsources a hsource))
  rcases Section.mem_addAll hmem with hsettled | hmem
  · exact .inl hsettled
  · have hin : a ∈ m.attrsOf key := List.mem_filter.mpr ⟨hmem, hakey⟩
    rw [hm.silent key hkey] at hin
    exact absurd hin List.not_mem_nil

theorem certificate_of_mem_settledLines (ha : a ∈ s.settledLines mid setup)
    (hkey : a.key = "fingerprint") : ∃ c, s.config.certificate = some c ∧
      a = .of "fingerprint" c.fingerprint.text := by
  have hothers : ∀ key ∈ ["mid", "ice-ufrag", "ice-pwd", "ice-options", "setup"],
      key ≠ "fingerprint" := by
    decide
  rcases List.mem_append.mp ha with hfirst | hdtls
  · have hin : a.key ∈ ["mid", "ice-ufrag", "ice-pwd", "ice-options"] :=
      List.mem_map_of_mem (f := Attribute.key) hfirst
    exact absurd hkey (hothers _ (List.mem_append_left ["setup"] hin))
  · cases setup with
    | none => exact absurd hdtls List.not_mem_nil
    | some setup =>
      rcases List.mem_append.mp hdtls with hcertificate | hsetup
      · obtain ⟨c, hc, rfl⟩ := Option.map_eq_some_iff.mp (Option.mem_toList.mp hcertificate)
        exact ⟨c, hc, rfl⟩
      · rw [List.mem_singleton.mp hsetup] at hkey
        exact absurd hkey (hothers _ (by decide : "setup" ∈ _))

/-- What an accepted section says of its session. -/
structure Signs (s : Session) (m : Section) : Prop where
  /-- The name of the credentials is the current one. -/
  ufrag_eq : m.attrsOf "ice-ufrag" = [.of "ice-ufrag" s.credentials.ufrag]
  /-- So is their password. -/
  password_eq : m.attrsOf "ice-pwd" = [.of "ice-pwd" s.credentials.password]
  /-- A fingerprint is that of the session's certificate. -/
  fingerprint : ∀ a ∈ m.attrsOf "fingerprint", ∃ c, s.config.certificate = some c ∧
    a = .of "fingerprint" c.fingerprint.text
  /-- The candidates are the session's in their order, and each text stands once. -/
  candidates_eq : m.attrsOf "candidate" = (s.candidates.map candidateAttr).eraseDups

theorem Signs.congr (h : s.Signs m) (hcredentials : s'.credentials = s.credentials)
    (hconfig : s'.config = s.config) (hcandidates : s'.candidates = s.candidates) :
    s'.Signs m where
  ufrag_eq := hcredentials ▸ h.ufrag_eq
  password_eq := hcredentials ▸ h.password_eq
  fingerprint := hconfig ▸ h.fingerprint
  candidates_eq := hcandidates ▸ h.candidates_eq

theorem signs_of_decorate (hm : m.Unsigned) (hrej : m.isRejected = false)
    (h : s.decorate mid setup m = (written, s)) : s.Signs written := by
  have hwritten : (s.decorate mid setup m).1 = written := congrArg Prod.fst h
  have hice : ∀ a ∈ s.iceAttrs, written.attrsOf a.key = [a] := fun a ha ↦
    hwritten ▸ attrsOf_settled hm.tidy s hrej (List.mem_append_left _ (List.mem_cons_of_mem _ ha))
  refine ⟨hice (.of "ice-ufrag" s.credentials.ufrag) List.mem_cons_self,
    hice (.of "ice-pwd" s.credentials.password) (List.mem_cons_of_mem _ List.mem_cons_self),
    fun a ha ↦ ?_, ?_⟩
  · have hkey : a.key = "fingerprint" := eq_of_beq (List.mem_filter.mp ha).2
    -- of what signing adds, only the settled lines can be fingerprints
    rcases mem_signed hm hrej h (by decide) ha with hsettled | ⟨v, -, rfl⟩ | hcandidate
    · exact certificate_of_mem_settledLines hsettled hkey
    · exact absurd hkey (by decide : "ssrc" ≠ "fingerprint")
    · obtain ⟨c, -, rfl⟩ := List.mem_map.mp hcandidate
      exact absurd hkey (by decide : "candidate" ≠ "fingerprint")
  · obtain ⟨sources, connection, hsources, rfl⟩ := signed_eq hrej h
    have hoften : (Attribute.singleKeys.contains "candidate" ||
        (Direction.ofKey? "candidate").isSome) = false := by
      decide
    have hopen : ∀ a ∈ s.candidates.map candidateAttr,
        a.key = "candidate" ∧ a.isSingle = false := by
      intro a ha
      obtain ⟨c, -, rfl⟩ := List.mem_map.mp ha
      exact ⟨rfl, hoften⟩
    refine Section.attrsOf_addAll_of_open hopen ?_
    have hsettled : "candidate" ∉ settledKeys := by decide
    refine (Section.attrsOf_addAll_of_ne (fun a ha ↦ ?_) _).trans
      ((Section.attrsOf_addAll_of_ne (fun a ha hkey ↦ ?_) m).trans (hm.silent _ (by decide)))
    · obtain ⟨v, -, rfl⟩ := hsources a ha
      exact (by decide : "ssrc" ≠ "candidate")
    · exact hsettled (hkey ▸ key_of_mem_settledLines ha)

/-- A signed section declares the source that the session has there. -/
theorem source_of_decorate (hm : m.Unsigned) (hrej : m.isRejected = false)
    (h : s.decorate mid setup m = (written, s)) (ha : a ∈ written.attrsOf "ssrc") :
    ∃ v, s.ssrc? mid = some v ∧ a = s.ssrcAttr v := by
  have hkey : a.key = "ssrc" := eq_of_beq (List.mem_filter.mp ha).2
  rcases mem_signed hm hrej h (by decide) ha with hsettled | hsource | hcandidate
  · have hopen : "ssrc" ∉ settledKeys := by decide
    exact absurd (hkey ▸ key_of_mem_settledLines hsettled) hopen
  · exact hsource
  · obtain ⟨c, -, rfl⟩ := List.mem_map.mp hcandidate
    exact absurd hkey (by decide : "candidate" ≠ "ssrc")

/-! ## Nothing twice -/

theorem single_decorate (hm : m.Unsigned) (s : Session) (mid : Mid) (setup : Option Setup) :
    (s.decorate mid setup m).1.Single where
  tidy := tidy_decorate hm.tidy s mid setup
  directions_le := by
    obtain ⟨as, _, has, h⟩ := decorate_adds s mid setup m
    have hkeys : ∀ key ∈ sessionKeys, Direction.ofKey? key = none := by decide
    have hdirections : (m.addAll as).directions = m.directions :=
      Section.directions_addAll (fun a ha ↦ hkeys a.key (has a ha)) m
    rw [h]
    exact Nat.le_trans (Nat.le_of_eq (congrArg List.length hdirections)) hm.directions_le
  length_mid := by
    rw [attrsOf_mid_decorate hm.tidy]
    rfl

/-! ## Sources -/

/-- The source that a session draws when it has drawn some others. -/
def nextSsrc (s : Session) (k : Nat) : Ssrc :=
  (Entropy.ssrc { s.entropy with used := s.entropy.used + k }).1

/-- Whether a source is the session's own in a section: it has been so far, or it is one of the next
draws. -/
def Owns (s : Session) (mid : Mid) (n : Nat) (v : Ssrc) : Prop :=
  s.ssrc? mid = some v ∨ ∃ k < n, s.nextSsrc k = v

theorem Owns.mono (h : s.Owns mid n v) (hle : n ≤ k) : s.Owns mid k v :=
  h.imp_right fun ⟨j, hj, hv⟩ ↦ ⟨j, Nat.lt_of_lt_of_le hj hle, hv⟩

theorem owns_of_ensureSsrc (h : (s.ensureSsrc mid').2.Owns mid n v) : s.Owns mid (n + 1) v := by
  cases hnone : s.ssrc? mid' with
  | some w =>
    rw [ensureSsrc_of_some hnone] at h
    exact h.mono (Nat.le_succ n)
  | none =>
    rcases h with hv | ⟨k, hk, hv⟩
    · by_cases hmid : mid' = mid
      · subst hmid
        rw [ssrc?_ensureSsrc, ensureSsrc, hnone] at hv
        exact .inr ⟨0, Nat.succ_pos n, Option.some_inj.mp hv⟩
      · rw [ssrc?_ensureSsrc_of_ne hmid] at hv
        exact .inl hv
    · -- the draws that follow are those behind the one that was taken
      have hentropy : (s.ensureSsrc mid').2.entropy =
          { s.entropy with used := s.entropy.used + 1 } := by
        rw [ensureSsrc, hnone]
        rfl
      refine .inr ⟨k + 1, Nat.succ_lt_succ hk, ?_⟩
      rw [← hv, nextSsrc, nextSsrc, hentropy, Nat.add_right_comm, Nat.add_assoc]

theorem owns_of_decorate (h : (s.decorate mid' setup m).2.Owns mid n v) :
    s.Owns mid (n + 1) v := by
  cases hrej : m.isRejected with
  | true =>
    rw [decorate_of_rejected s mid' setup hrej] at h
    exact h.mono (Nat.le_succ n)
  | false =>
    rw [decorate_of_accepted s mid' setup hrej, addSource] at h
    split at h
    · exact owns_of_ensureSsrc h
    · exact h.mono (Nat.le_succ n)

/-- The sources of a session that has written sections are its own, with a draw for each. -/
theorem owns_of_decorateAll {qs : List (Planned × Option Setup)}
    (h : (s.decorateAll qs).2.Owns mid n v) : s.Owns mid (n + qs.length) v := by
  induction qs generalizing s with
  | nil => exact h
  | cons q qs ih =>
    have hrest : (s.decorate q.1.mid q.2 q.1.body).2.Owns mid (n + qs.length) v := ih h
    exact owns_of_decorate hrest

/-! ## Descriptions -/

/-- Whether the sections of a description say nothing twice, and those that are accepted say of the
session only what is its own: the session `s` that was asked for the description, and `s'` that is
left. A source is still the section's where its identifier is one that `keeps` holds of. -/
def SignedBy (s s' : Session) (d : Description) (keeps : Mid → Prop) : Prop :=
  ∀ m ∈ d.sections, m.Single ∧ (m.isRejected = false → s'.Signs m ∧
    ∀ a ∈ m.attrsOf "ssrc", ∃ mid v, m.mid? = some mid ∧ a = s'.ssrcAttr v ∧
      s.Owns mid d.sections.length v ∧ (keeps mid → s'.ssrc? mid = some v))

/-- What a section says once its session can write it again. -/
theorem speaks_of_decorate (hm : m.Unsigned) (h : s.decorate mid setup m = (written, s)) :
    written.Single ∧ (written.isRejected = false → s.Signs written ∧
      ∀ a ∈ written.attrsOf "ssrc", ∃ v, s.ssrc? mid = some v ∧ a = s.ssrcAttr v) := by
  have hwritten : (s.decorate mid setup m).1 = written := congrArg Prod.fst h
  refine ⟨hwritten ▸ single_decorate hm s mid setup, fun hrej ↦ ?_⟩
  have hbody : m.isRejected = false := by
    rw [← hwritten, Section.isRejected, port_decorate] at hrej
    exact hrej
  exact ⟨signs_of_decorate hm hbody h, fun a ha ↦ source_of_decorate hm hbody h ha⟩

end Session

namespace Offering

open Session

variable {s : Session} {run : Offering s} {i : Nat} {q r : Planned} {o : Section}

theorem Row.unsigned (hrow : run.Row i q r o) : r.body.Unsigned := by
  have hplanned := unsigned_planOffer run.plan_eq q (List.mem_of_getElem? hrow.planned)
  exact hrow.fate.unsigned hplanned ⟨hplanned.tidy, hplanned.directions_le, hplanned.silent⟩

/-- An offer is signed by the session that has written it, without conditions. -/
theorem signedBy (run : Offering s) (hlegible : ∀ n ∈ s.negotiated, n.mid.Legible) :
    SignedBy s run.written.2 run.offer fun _ ↦ True := by
  intro m hm
  obtain ⟨i, hi⟩ := List.mem_iff_getElem?.mp hm
  obtain ⟨q, r, hrow⟩ := run.exists_row hi
  obtain ⟨hsingle, hspeaks⟩ := speaks_of_decorate hrow.unsigned (hrow.written_again hi)
  refine ⟨hsingle, fun hrej ↦ ⟨(hspeaks hrej).1, fun a ha ↦ ?_⟩⟩
  obtain ⟨v, hv, rfl⟩ := (hspeaks hrej).2 a ha
  have hmid := hrow.mid?_eq hlegible
  rw [← hrow.fate.mid_eq] at hmid
  refine ⟨r.mid, v, hmid, rfl, ?_, fun _ ↦ hv⟩
  have howns :
      (run.start.decorateAll (run.placed.map fun q ↦ (q, offerSetup q))).2.Owns r.mid 0 v :=
    .inl hv
  have hlen := (decorateAll_sections run.start
    (run.placed.map fun q ↦ (q, offerSetup q))).length_eq
  have hdraws := owns_of_decorateAll howns
  rw [hlen, Nat.zero_add] at hdraws
  exact hdraws

end Offering

namespace Answering

open Session

variable {s : Session} {remote : Description} {run : Answering s remote} {i : Nat}
  {q r : Planned} {o a : Section} {n : NegotiatedMedia}

theorem Row.unsigned (hrow : run.Row i q r o a n) : r.body.Unsigned :=
  hrow.fate.unsigned (unsigned_planAnswer hrow.planned) (Section.unsigned_rejected o)

theorem self_concluded (run : Answering s remote) :
    run.concluded.1.credentials = run.written.2.credentials ∧
      run.concluded.1.config = run.written.2.config ∧
        run.concluded.1.candidates = run.written.2.candidates ∧
          run.concluded.1.cname = run.written.2.cname := by
  obtain ⟨s₁, state, hcommit, -, hs⟩ := run.concluded_spec
  obtain ⟨_, _, _, _, _, hrecord⟩ := hcommit.record
  rw [hs, hrecord, secured]
  exact ⟨rfl, rfl, rfl, rfl⟩

/-- An answer is signed by the session that has written it, and that keeps the sources of sections
whose identifiers no rejected section has. -/
theorem signedBy (run : Answering s remote) : SignedBy s run.concluded.1 run.answer fun mid ↦
    ∀ n ∈ run.concluded.1.negotiated, n.mid = mid → n.rejected = false := by
  intro m hm
  obtain ⟨i, hi⟩ := List.mem_iff_getElem?.mp hm
  obtain ⟨q, r, o, n, -, hrow⟩ := run.exists_row_of_answered hi
  obtain ⟨hsingle, hspeaks⟩ := speaks_of_decorate hrow.unsigned (hrow.written_again hi)
  obtain ⟨hcredentials, hconfig, hcandidates, hcname⟩ := run.self_concluded
  refine ⟨hsingle, fun hrej ↦ ⟨(hspeaks hrej).1.congr hcredentials hconfig hcandidates,
    fun a ha ↦ ?_⟩⟩
  obtain ⟨v, hv, rfl⟩ := (hspeaks hrej).2 a ha
  have hmid : r.mid = midAt remote i := hrow.mid_eq
  refine ⟨r.mid, v, hmid ▸ hrow.mid?_eq, ?_, ?_, fun hkept ↦ ?_⟩
  · rw [ssrcAttr, ssrcAttr, hcname]
  · have howns : (run.start.decorateAll run.decorated).2.Owns r.mid 0 v := .inl hv
    have hdraws := owns_of_decorateAll howns
    rw [run.length_decorated, ← run.length_sections, Nat.zero_add] at hdraws
    exact hdraws
  · have hheld : ¬Released run.outcomes.1 r.mid := by
      rw [run.released_iff]
      rintro ⟨n', hn', hrejected, hsame⟩
      have haccepted := hkept n' (run.negotiated_concluded ▸ hn') hsame
      exact absurd (haccepted.symm.trans hrejected) Bool.false_ne_true
    exact (run.writesAs_concluded hheld).ssrc?_eq v hv

end Answering

namespace Session

variable {s : Session}

/-! ## Candidates -/

/-- The candidate that is added when an input is answered. -/
def added? : Input → Output → Option Candidate
  | .call (.localCandidate c), .returned (.ok (.flag true)) => some c
  | _, _ => none

theorem candidates_processOffer (hs : s.Sound) (ports : PortAllocator) (remote : Description) :
    (s.processOffer ports remote).session.candidates = s.candidates := by
  rcases processOffer_cases hs.exclusive hs.hasPem hs.answerSetup_ne ports remote with
    ⟨e, hr⟩ | ⟨-, -, run, hr⟩
  · rw [hr]
    rfl
  · obtain ⟨_, _, _, hwritten⟩ := run.written_eq
    rw [hr, run.self_concluded.2.2.1, hwritten]
    rfl

theorem candidates_processAnswer (hs : s.Sound) (ports : PortAllocator) (answer : Description) :
    (s.processAnswer ports answer).session.candidates = s.candidates := by
  rcases processAnswer_cases hs.hasPem ports answer with ⟨e, hr⟩ | ⟨-, pending, -, run, hr⟩
  · rw [hr]
    rfl
  · obtain ⟨s₁, state, hcommit, -, hconcluded⟩ := run.concluded_spec hs.exclusive ports
    obtain ⟨_, _, _, _, _, hrecord⟩ := hcommit.record
    rw [hr, hconcluded, hrecord]
    rfl

theorem candidates_settle (s : Session) : s.settle.candidates = s.candidates := by
  obtain ⟨state, -, h⟩ := settle_eq s
  rw [h]

theorem candidates_call (hs : s.Sound) (ports : PortAllocator) {c : SessionCall}
    (hc : ∀ candidate, c ≠ .localCandidate candidate) :
    (s.call ports c).session.candidates = s.candidates := by
  cases c with
  | offer =>
    change (s.generateOffer ports).session.candidates = _
    rcases generateOffer_cases hs.exclusive ports with ⟨e, hr⟩ | ⟨-, run, hr⟩
    · rw [hr]
      rfl
    · obtain ⟨_, _, _, hwritten⟩ := run.written_eq
      rw [hr, hwritten]
  | answer remote => exact candidates_processOffer hs ports remote
  | accept answer => exact candidates_processAnswer hs ports answer
  | localCandidate candidate => exact absurd rfl (hc candidate)
  | remoteCandidate mid index line =>
    obtain ⟨transport, h, -⟩ := session_addRemoteCandidate s ports mid index line
    change (s.addRemoteCandidate ports mid index line).session.candidates = _
    rw [h]
  | restartIce =>
    change (s.restartIce ports).session.candidates = _
    rw [restartIce]
    split <;> rfl
  | ice endpoint component state generation =>
    change (s.handleIce ports endpoint component state generation).session.candidates = _
    rw [handleIce]
    split
    · rfl
    · split
      · rfl
      · exact candidates_settle _
  | dtls endpoint generation =>
    change (s.handleDtls ports endpoint generation).session.candidates = _
    rw [handleDtls]
    split
    · rfl
    · split
      · rfl
      · exact candidates_settle _
  | close =>
    change (s.close ports).session.candidates = _
    rw [close]
    split <;> rfl

theorem candidates_addLocalCandidate (s : Session) (ports : PortAllocator) (c : Candidate) :
    (s.addLocalCandidate ports c).session.candidates = s.candidates ++
      (added? (.call (.localCandidate c))
        (.returned ((s.addLocalCandidate ports c).result.map .flag))).toList := by
  rw [addLocalCandidate]
  split
  · exact (List.append_nil _).symm
  · split
    · exact (List.append_nil _).symm
    · rfl

theorem candidates_advance {x : Session × PortAllocator} (hx : x.1.Sound) (i : Input) :
    (advance x i).2.1.candidates =
      x.1.candidates ++ (added? i (advance x i).1).toList := by
  obtain ⟨s, ports⟩ := x
  cases i with
  | rtcp buffer => exact (List.append_nil _).symm
  | others ports => exact (List.append_nil _).symm
  | call c =>
    by_cases hc : ∃ candidate, c = .localCandidate candidate
    · obtain ⟨candidate, rfl⟩ := hc
      exact candidates_addLocalCandidate s ports candidate
    · have hother : ∀ candidate, c ≠ .localCandidate candidate := fun candidate h ↦
        hc ⟨candidate, h⟩
      have hnone : added? (.call c) (advance (s, ports) (.call c)).1 = none := by
        cases c with
        | localCandidate candidate => exact absurd rfl (hother candidate)
        | _ => rfl
      rw [hnone]
      exact (candidates_call hx ports hother).trans (List.append_nil _).symm

/-- **Candidates stand in the order in which they were added**, whatever else a run does. -/
theorem candidates_final {x : Session × PortAllocator} (hx : x.1.Reachable) (is : List Input) :
    (Moment.final advance x is).1.candidates =
      x.1.candidates ++ (Moment.trace advance x is).filterMap fun m ↦ added? m.input m.answer := by
  induction is generalizing x with
  | nil => exact (List.append_nil _).symm
  | cons i is ih =>
    have hrest := ih (reachable_advance hx i)
    rw [candidates_advance hx.sound, List.append_assoc] at hrest
    refine hrest.trans (congrArg (x.1.candidates ++ ·) ?_)
    rw [Moment.trace, List.filterMap_cons]
    cases added? i (advance x i).1 <;> rfl

/-! ## The operations -/

/-- **Descriptions say of a session what is its own, and nothing twice.** Whatever a session that
was built has been through: in an offer that it makes, and in an answer that it gives to whatever
offer, no section says twice what may be said once; and in an accepted one the credentials are the
current ones, a fingerprint is that of its certificate, the candidates are its own, and every source
is one that it has or has drawn for the description, with its own name. The source is still that of
the section when the call is over, unless the call is an answer and rejects a section of the same
identifier. The candidates are those that were added, in order. -/
theorem descriptions_signed (hs : s.Reachable) (ports : PortAllocator) :
    (∀ d, (s.generateOffer ports).result = .ok d →
      SignedBy s (s.generateOffer ports).session d fun _ ↦ True) ∧
    (∀ remote d, (s.processOffer ports remote).result = .ok d →
      let s' := (s.processOffer ports remote).session
      SignedBy s s' d fun mid ↦ ∀ n ∈ s'.negotiated, n.mid = mid → n.rejected = false) ∧
    ∀ is, (Moment.final advance (s, ports) is).1.candidates = s.candidates ++
      (Moment.trace advance (s, ports) is).filterMap fun m ↦ added? m.input m.answer := by
  refine ⟨fun d h ↦ ?_, fun remote d h ↦ ?_, fun is ↦ candidates_final (x := (s, ports)) hs is⟩
  · obtain ⟨run, hr, -⟩ := generateOffer_placed hs.sound.exclusive h
    rw [hr] at h ⊢
    cases h
    exact run.signedBy hs.mentioned.legible
  · obtain ⟨-, -, run, hr, -⟩ := processOffer_placed hs.sound h
    rw [hr] at h ⊢
    cases h
    exact run.signedBy

/-- An offer that says much of the offerer, some of it twice. -/
def talkative : Description where
  session := { id := 1, version := 1 }
  sections := [audioSection "a" ["0"]
    [.of "ice-ufrag" "u", .of "ice-pwd" "p", .of "fingerprint" "sha-256 00",
      .of "candidate" "2 1 udp 1 10.0.0.1 9 typ host", .of "ssrc" "7 cname:x", .flag "sendrecv",
      .flag "recvonly", .of "mid" "b", .of "sctp-port" "1", .of "sctp-port" "2"]]

/-- A candidate in a private network. -/
def nearby : Candidate where
  foundation := "1"
  component := 1
  protocol := .udp
  priority := 1
  address := { ip := .v4 ⟨10, 0, 0, 2⟩, port := 9 }
  kind := .host
  related := none
  ufrag := none

/-- What the answer to it says, of the answerer and once. -/
def ownLines : List Attribute :=
  [.flag "sendrecv", .of "sctp-port" "2", .of "rtcp" "10001", .of "mid" "a",
    .of "ice-ufrag" "abcdefgh", .of "ice-pwd" "ijklmnopqrstuvxyzABCDEFG",
    .of "ice-options" "trickle", .of "ssrc" "50 cname:IJKLMNOPQRSTUVXY",
    .of "candidate" "1 1 udp 1 10.0.0.2 9 typ host"]

theorem talkative_answered :
    let s := ((ofAudio ⟨fun i ↦ i, 0⟩).call {} (.localCandidate nearby)).session
    ∃ d, (s.processOffer {} talkative).result = .ok d ∧
      (let s' := (s.processOffer {} talkative).session
      SignedBy s s' d fun mid ↦ ∀ n ∈ s'.negotiated, n.mid = mid → n.rejected = false) ∧
      d.sections.map (·.attrs) = [ownLines] := by
  intro s
  have hs : s.Reachable := .call {} (.localCandidate nearby) (reachable_ofAudio _)
  have hlines : (s.processOffer {} talkative).result.toOption.map (·.sections.map (·.attrs)) =
      some [ownLines] := by
    decide +kernel
  cases h : (s.processOffer {} talkative).result with
  | error e =>
    rw [h] at hlines
    cases hlines
  | ok d =>
    rw [h] at hlines
    exact ⟨d, rfl, (descriptions_signed hs {}).2.1 talkative d h, Option.some_inj.mp hlines⟩

/-- An offer of two audio sections of one identifier, of which the second is switched off. -/
def sharedName : Description where
  session := { id := 1, version := 1 }
  sections := [audioSection "a" ["0"] [], { audioSection "a" ["0"] [] with port := 0 }]

/-- The source of a section that shares its identifier with a rejected one is not the session's any
more when the answer is returned. -/
theorem shared_name_disowned :
    ¬∀ (s : Session) (ports : PortAllocator) (remote d : Description), s.Reachable →
      (s.processOffer ports remote).result = .ok d →
        let s' := (s.processOffer ports remote).session
        ∀ m ∈ d.sections, m.isRejected = false → ∀ a ∈ m.attrsOf "ssrc",
          ∃ mid v, m.mid? = some mid ∧ s'.ssrc? mid = some v ∧ a = s'.ssrcAttr v := by
  intro howned
  have hrun := fun d ↦ howned (ofAudio ⟨fun i ↦ i, 0⟩) {} sharedName d (reachable_ofAudio _)
  have hlost : (((ofAudio ⟨fun i ↦ i, 0⟩).processOffer {} sharedName).result.toOption.any fun d ↦
      d.sections.any fun m ↦ !m.isRejected && (m.attrsOf "ssrc").any fun a ↦
        (m.mid?.bind ((ofAudio ⟨fun i ↦ i, 0⟩).processOffer {} sharedName).session.ssrc?).all
          fun v ↦ a ≠ ((ofAudio ⟨fun i ↦ i, 0⟩).processOffer {} sharedName).session.ssrcAttr v) =
      true := by
    decide +kernel
  generalize (ofAudio ⟨fun i ↦ i, 0⟩).processOffer {} sharedName = r at hrun hlost
  cases h : r.result with
  | error e =>
    rw [h] at hlost
    cases hlost
  | ok d =>
    rw [h] at hlost
    obtain ⟨m, hm, hlost⟩ := List.any_eq_true.mp hlost
    rw [Bool.and_eq_true, Bool.not_eq_true'] at hlost
    obtain ⟨hacc, hlost⟩ := hlost
    obtain ⟨a, ha, hlost⟩ := List.any_eq_true.mp hlost
    obtain ⟨mid, v, hmid, hv, hdeclared⟩ := hrun d h m hm hacc a ha
    rw [hmid, Option.bind_some, hv] at hlost
    exact of_decide_eq_true hlost hdeclared

end Session

end OfferAnswer
