import OfferAnswer.Proofs.Session.Streams

/-!
# Listening to what the peer declares

A peer declares the remote sources of a section, and after an exchange each should be bound to our
source in a section that declares it, unless its reports have taught us otherwise. This holds of
every source that moves to a later section, is new, or stays. It fails of one that moves to an
earlier section: when that section is heard, the old binding is still there, and when it goes,
nothing declares the source any more.

`LeftBehind` says exactly when this happens, with what was known before the call.
-/

namespace OfferAnswer.Session

open CorrelationTable

variable {s s' base : Session} {remote answer : Description} {r : Ssrc}

/-- Whether a remote source is correlated after an exchange. It is bound; and unless it was bound by
a report before, it is bound by the description, to our source in a section that declares it. -/
def Correlated (s s' : Session) (remote : Description) (r : Ssrc) : Prop :=
  ∃ c, s'.correlation.binding? r = some c ∧
    ((∀ b, s.correlation.binding? r = some b → b.via = .description) →
      c.via = .description ∧ ∃ x ∈ s'.heards s'.negotiated remote.sections,
        r ∈ x.declared ∧ c.source = x.source)

/-- Whether an exchange leaves a remote source behind. It was bound by a description, to a source of
ours that no accepted section has, or from whose section on no accepted section declares it; and
that binding goes with no rejected section. -/
def LeftBehind (s s' : Session) (remote : Description) (r : Ssrc) : Prop :=
  ∃ b, s.correlation.binding? r = some b ∧ Stranded b (s'.heards s'.negotiated remote.sections) ∧
    ∀ n ∈ s'.negotiated, n.rejected = true → s.ssrc? n.mid ≠ some b.source

/-- What is declared and not left behind is correlated, if our sources are different. -/
theorem Concludes.correlated (h : Concludes s base s' remote answer) (hs : s.StreamsKeyed)
    (hdistinct : ((s'.heards s'.negotiated remote.sections).map (·.source)).Nodup)
    (hdeclared : ∃ x ∈ s'.heards s'.negotiated remote.sections, r ∈ x.declared)
    (hfollows : ¬LeftBehind s s' remote r) : Correlated s s' remote r := by
  obtain ⟨-, -, hbindings⟩ := h.bindings hs.bindings (hs.open_eq h.not_closed)
  obtain ⟨kept, hkept, hafter⟩ := hbindings r
  cases kept with
  | none =>
    obtain ⟨x, hx, hrx, hfold⟩ := foldl_hear_of_unbound hdistinct hdeclared
    exact ⟨_, hafter.trans hfold, fun _ ↦ ⟨rfl, x, hx, hrx, rfl⟩⟩
  | some b =>
    obtain ⟨hbound, hstays⟩ := (hkept b).mp rfl
    by_cases hvia : b.via = .description
    · obtain rfl : b.remote = r := (hs.bindings.binding?_eq_some_iff.mp hbound).2
      have hfree : ¬Stranded b (s'.heards s'.negotiated remote.sections) := by
        intro hstranded
        refine hfollows ⟨b, hbound, hstranded, fun n hn hrej hsource ↦ hstays ?_⟩
        exact ⟨n, hn, (h.endpoint_iff n hn).mpr hrej, h.sources n.mid b.source hsource⟩
      obtain ⟨x, hx, hrx, hfold⟩ := foldl_hear_of_not_stranded hdistinct hvia hfree
      exact ⟨_, hafter.trans hfold, fun _ ↦ ⟨rfl, x, hx, hrx, rfl⟩⟩
    · -- what a report taught is not touched
      have hfold : (s'.heards s'.negotiated remote.sections).foldl (hear r) (some b) = some b :=
        foldl_hear_of_kept fun x _ _ hc ↦ hvia (congrArg SsrcBinding.via hc)
      exact ⟨b, hafter.trans hfold, fun hall ↦ absurd (hall b hbound) hvia⟩

/-- What is left behind is not correlated, if no identifier is given twice. -/
theorem Concludes.not_correlated (h : Concludes s base s' remote answer) (hs : s.StreamsKeyed)
    (hmids : (s'.negotiated.map (·.mid)).Nodup) (hleft : LeftBehind s s' remote r) :
    ¬Correlated s s' remote r := by
  obtain ⟨b, hbound, hstranded, hother⟩ := hleft
  obtain ⟨-, -, hbindings⟩ := h.bindings hs.bindings (hs.open_eq h.not_closed)
  obtain ⟨kept, hkept, hafter⟩ := hbindings r
  have hstays : ¬base.GivesUp s'.negotiated b.source := by
    rintro ⟨n, hn, hnone, hsource⟩
    have hrej := (h.endpoint_iff n hn).mp hnone
    rcases h.drawn n.mid b.source hsource with hold | ⟨n', hn', hmid, hacc⟩
    · exact hother n hn hrej hold
    · obtain rfl : n' = n := List.inj_on_of_nodup_map hmids hn' hn hmid
      exact absurd (hacc.symm.trans hrej) Bool.false_ne_true
  obtain rfl : b.remote = r := (hs.bindings.binding?_eq_some_iff.mp hbound).2
  rw [(hkept b).mpr ⟨hbound, hstays⟩] at hafter
  rintro ⟨c, hc, hcorrelated⟩
  rcases foldl_hear_of_stranded hstranded with hnone | hsame
  · exact absurd (hc.symm.trans (hafter.trans hnone)) (Option.some_ne_none c)
  · -- it still points to where it pointed, and there it is declared no longer
    obtain rfl : c = b := Option.some_inj.mp (hc.symm.trans (hafter.trans hsame))
    obtain ⟨-, x, hx, hrx, hsource⟩ := hcorrelated fun b' hb' ↦ by
      rw [← Option.some_inj.mp (hbound.symm.trans hb')]
      exact hstranded.1
    obtain ⟨before, after, hsplit⟩ := List.append_of_mem hx
    exact hstranded.2 before x after hsplit hsource.symm x List.mem_cons_self hrx

/-- Whether an exchange correlates what its accepted audio and video sections declare: all that is
not left behind, if our sources in these sections are different, and nothing that is, if the
sections have different identifiers. -/
def CorrelatesDeclared (s s' : Session) (remote : Description) : Prop :=
  ∀ x ∈ s'.negotiated.zip remote.sections, x.1.rejected = false → x.2.kind.isMedia = true →
    ∀ r ∈ x.2.ssrcs,
      (((s'.heards s'.negotiated remote.sections).map (·.source)).Nodup →
        ¬LeftBehind s s' remote r → Correlated s s' remote r) ∧
      ((s'.negotiated.map (·.mid)).Nodup →
        LeftBehind s s' remote r → ¬Correlated s s' remote r)

theorem Concludes.correlatesDeclared (h : Concludes s base s' remote answer)
    (hs : s.StreamsKeyed) : CorrelatesDeclared s s' remote := by
  intro x hx hacc hmedia r hr
  obtain ⟨v, -, hheard⟩ := h.heard hx hacc hmedia
  exact ⟨fun hdistinct ↦ h.correlated hs hdistinct ⟨_, hheard, hr⟩, fun hmids ↦
    h.not_correlated hs hmids⟩

/-- **Declared sources are correlated, unless they are left behind.** Whatever a session that was
built has been through: when it answers an offer or applies an answer, a remote source that an
accepted audio or video section declares is correlated, exactly if the exchange does not leave it
behind. -/
theorem declared_sources_correlated (hs : s.Reachable) (ports : PortAllocator) :
    (∀ remote answer, (s.processOffer ports remote).result = .ok answer →
      CorrelatesDeclared s (s.processOffer ports remote).session remote) ∧
    ∀ answer, (s.processAnswer ports answer).result = .ok () →
      CorrelatesDeclared s (s.processAnswer ports answer).session answer := by
  constructor
  · intro remote answer h
    obtain ⟨base, hconcludes⟩ := concludes_processOffer hs.sound h
    exact hconcludes.correlatesDeclared hs.streamsKeyed
  · intro answer h
    obtain ⟨base, hconcludes⟩ := concludes_processAnswer hs.sound h
    exact hconcludes.correlatesDeclared hs.streamsKeyed

/-- A configuration for audio in the clear. -/
def audioOnly : SessionConfig where
  handlers := [.audio { profile := .avp, codecs := Codec.defaultAudio }]

/-- A session for audio in the clear. -/
def ofAudio (e : Entropy) : Session :=
  create audioOnly [.rtp ⟨.audio, .avp, Codec.defaultAudio, .sendRecv⟩] e

theorem reachable_ofAudio (e : Entropy) : (ofAudio e).Reachable :=
  .build (show build audioOnly e = .ok (ofAudio e) from rfl)

/-- An audio section in the clear. -/
def audioSection (mid : String) (formats : List String) (attrs : List Attribute) : Section where
  kind := .audio
  port := 9
  proto := "RTP/AVP"
  formats := formats
  attrs := .of "mid" mid :: attrs

/-- An offer of two audio sections, with further attributes in each. -/
def twoAudios (first second : List Attribute) : Description where
  session := { id := 1, version := 1 }
  sections := [audioSection "a" ["0"] first, audioSection "b" ["0"] second]

theorem later_section_correlates :
    let declared := [Attribute.of "ssrc" "7 cname:x"]
    let first := (ofAudio ⟨fun i ↦ i, 0⟩).call {} (.answer (twoAudios declared []))
    let moved := twoAudios [] declared
    let second := first.session.processOffer first.ports moved
    second.result.isOk = true ∧ Correlated first.session second.session moved 7 := by
  intro declared first moved second
  have hs : first.session.Reachable :=
    .call {} (.answer (twoAudios declared [])) (reachable_ofAudio _)
  have hok : second.result.isOk = true := by decide +kernel
  have hheards : second.session.heards second.session.negotiated moved.sections =
      [⟨50, []⟩, ⟨51, [7]⟩] := by
    decide +kernel
  have hbound : first.session.correlation.binding? 7 = some ⟨7, 50, .description⟩ := by
    decide +kernel
  have hsection : ∃ x ∈ second.session.negotiated.zip moved.sections, x.1.rejected = false ∧
      x.2.kind.isMedia = true ∧ 7 ∈ x.2.ssrcs := by
    decide +kernel
  obtain ⟨x, hx, hacc, hmedia, hr⟩ := hsection
  cases h : second.result with
  | error e =>
    rw [h] at hok
    cases hok
  | ok answer =>
    have hcorrelates := (declared_sources_correlated hs first.ports).1 moved answer h x hx hacc
      hmedia 7 hr
    refine ⟨rfl, hcorrelates.1 ?_ ?_⟩
    · rw [hheards]
      decide
    · rintro ⟨b, hb, hstranded, -⟩
      obtain rfl := Option.some_inj.mp (hbound.symm.trans hb)
      -- the section that it leaves comes first, and the other one declares it
      rw [hheards] at hstranded
      exact hstranded.2 [] _ _ rfl rfl _ (List.mem_cons_of_mem _ List.mem_cons_self)
        List.mem_cons_self

/-- A source that moves to an earlier section ends up unbound. -/
theorem earlier_section_forgets :
    ¬∀ (s : Session) (ports : PortAllocator) (remote answer : Description), s.Reachable →
      (s.processOffer ports remote).result = .ok answer →
        let s' := (s.processOffer ports remote).session
        ∀ x ∈ s'.negotiated.zip remote.sections, x.1.rejected = false → x.2.kind.isMedia = true →
          ∀ r ∈ x.2.ssrcs, Correlated s s' remote r := by
  intro hcorrelated
  let declared := [Attribute.of "ssrc" "7 cname:x"]
  let first := (ofAudio ⟨fun i ↦ i, 0⟩).call {} (.answer (twoAudios [] declared))
  let moved := twoAudios declared []
  have hrun := fun answer ↦ hcorrelated first.session first.ports moved answer
    (.call {} (.answer (twoAudios [] declared)) (reachable_ofAudio _))
  have hlost : ((first.session.processOffer first.ports moved).result.isOk &&
      ((first.session.processOffer first.ports moved).session.correlation.binding? 7).isNone &&
      ((first.session.processOffer first.ports moved).session.negotiated.zip moved.sections).any
        fun x ↦ !x.1.rejected && x.2.kind.isMedia && x.2.ssrcs.contains 7) = true := by
    decide +kernel
  generalize first.session.processOffer first.ports moved = r at hrun hlost
  rw [Bool.and_eq_true, Bool.and_eq_true, Option.isNone_iff_eq_none] at hlost
  obtain ⟨⟨hok, hunbound⟩, hdeclares⟩ := hlost
  obtain ⟨x, hx, hdeclares⟩ := List.any_eq_true.mp hdeclares
  rw [Bool.and_eq_true, Bool.and_eq_true, Bool.not_eq_true', List.contains_iff_mem] at hdeclares
  obtain ⟨⟨hacc, hmedia⟩, hr⟩ := hdeclares
  cases h : r.result with
  | error e =>
    rw [h] at hok
    cases hok
  | ok answer =>
    obtain ⟨c, hc, -⟩ := hrun answer h x hx hacc hmedia 7 hr
    exact Option.some_ne_none c (hc.symm.trans hunbound)

end OfferAnswer.Session
