import OfferAnswer.Proofs.Session.Commit
import OfferAnswer.Proofs.Session.Decoration
import OfferAnswer.Proofs.Session.Placement

/-!
# Writing a section again

What a session adds to a section depends on little: who the session is, and which source it has
there. So once a section is written, writing it again gives the same section and takes nothing, and
it stays so as long as the session keeps its source. `WritesAs` is the part of a session that
counts.

The same goes for ports. A section that is carried takes those of its endpoint, and no others are
looked for. `Holds` puts both together: a section that the session has written and can write again.
-/

namespace OfferAnswer

open TransportBinding (Keeps)

/-! ## Rejections -/

namespace Section

variable {o : Section} {name : String}

theorem attr?_mid_rejected (o : Section) : (rejected o).attr? "mid" = o.attr? "mid" := by
  rw [attr?, rejected]
  cases o.attr? "mid" with
  | none => rfl
  | some name => simp [Attribute.lookup, Attribute.of, Attribute.content]

@[simp] theorem rejected_rejected (o : Section) : rejected (rejected o) = rejected o := by
  have hmid := attr?_mid_rejected o
  rw [rejected, hmid]
  rfl

theorem add_mid_rejected (h : o.attr? "mid" = some name) :
    (rejected o).add (.of "mid" name) = rejected o := by
  simp [rejected, add, Attribute.addOnce, h]

theorem rejected_add_mid (o : Section) (name : String) :
    rejected ((rejected o).add (.of "mid" name)) = (rejected o).add (.of "mid" name) := by
  have hadded : ((rejected o).add (.of "mid" name)).attrs = [.of "mid" name] := by
    rw [add, rejected]
    cases o.attr? "mid" with
    | none => rfl
    | some x =>
      by_cases hx : name = x
      · simp [Attribute.addOnce, hx]
      · simp [Attribute.addOnce, hx, Attribute.of, Attribute.isSingle, Attribute.singleKeys,
          Attribute.hasKey, Attribute.replaceFirst]
  have hdeclared : ((rejected o).add (.of "mid" name)).attr? "mid" = some name := by
    rw [attr?, hadded]
    rfl
  rw [rejected, hdeclared]
  change _ = { (rejected o) with attrs := ((rejected o).add (.of "mid" name)).attrs }
  rw [hadded]
  rfl

end Section

namespace Session

variable {s s' s'' : Session} {mid : Mid} {setup : Option Setup} {m written body : Section}

/-! ## Sources -/

theorem ssrc?_append_of_some {v : Ssrc} {ssrcs : List (Mid × Ssrc)} (h : s.ssrc? mid = some v)
    (hs : s'.ssrcs = s.ssrcs ++ ssrcs) : s'.ssrc? mid = some v := by
  rw [ssrc?] at h ⊢
  obtain ⟨x, hx, rfl⟩ := Option.map_eq_some_iff.mp h
  rw [hs, List.find?_append, hx]
  rfl

theorem ensureSsrc_of_some {v : Ssrc} (h : s.ssrc? mid = some v) : s.ensureSsrc mid = (v, s) := by
  rw [ensureSsrc, h]

theorem ssrc?_ensureSsrc (s : Session) (mid : Mid) :
    (s.ensureSsrc mid).2.ssrc? mid = some (s.ensureSsrc mid).1 := by
  cases h : s.ssrc? mid with
  | some v =>
    rw [ensureSsrc_of_some h]
    exact h
  | none =>
    have hnone : s.ssrcs.find? (·.1 == mid) = none := by simpa [ssrc?] using h
    rw [ensureSsrc, h]
    simp [ssrc?, List.find?_append, hnone]

/-- A session that writes as another does in a section: it is the same to the outside, and it has
kept its source there, if it had one. -/
structure WritesAs (s s' : Session) (mid : Mid) : Prop where
  /-- It is configured as before. -/
  config_eq : s'.config = s.config
  /-- Its credentials are the same. -/
  credentials_eq : s'.credentials = s.credentials
  /-- So is the name of its sources. -/
  cname_eq : s'.cname = s.cname
  /-- So are its candidates. -/
  candidates_eq : s'.candidates = s.candidates
  /-- A source stays. -/
  ssrc?_eq : ∀ v, s.ssrc? mid = some v → s'.ssrc? mid = some v

theorem WritesAs.refl (s : Session) (mid : Mid) : WritesAs s s mid :=
  ⟨rfl, rfl, rfl, rfl, fun _ h ↦ h⟩

theorem WritesAs.trans (h : WritesAs s s' mid) (h' : WritesAs s' s'' mid) : WritesAs s s'' mid where
  config_eq := h'.config_eq.trans h.config_eq
  credentials_eq := h'.credentials_eq.trans h.credentials_eq
  cname_eq := h'.cname_eq.trans h.cname_eq
  candidates_eq := h'.candidates_eq.trans h.candidates_eq
  ssrc?_eq := fun v hv ↦ h'.ssrc?_eq v (h.ssrc?_eq v hv)

/-- Drawing a source for one section takes none from another. -/
theorem writesAs_ensureSsrc (s : Session) (mid mid' : Mid) :
    WritesAs s (s.ensureSsrc mid).2 mid' := by
  rw [ensureSsrc]
  split
  · exact .refl s mid'
  · exact ⟨rfl, rfl, rfl, rfl, fun _ h ↦ ssrc?_append_of_some h rfl⟩

/-! ## Decorating -/

theorem addSource_congr (h : WritesAs s s' mid) (hm : (s.addSource mid m).2 = s) :
    s'.addSource mid m = ((s.addSource mid m).1, s') := by
  rw [addSource] at hm
  rw [addSource, addSource]
  split
  · rename_i hmedia
    rw [if_pos hmedia] at hm
    -- no source was drawn, so it was there
    have hsource := ssrc?_ensureSsrc s mid
    change (s.ensureSsrc mid).2 = s at hm
    rw [hm] at hsource
    rw [ensureSsrc_of_some hsource, ensureSsrc_of_some (h.ssrc?_eq _ hsource)]
    simp only [ssrcAttr, h.cname_eq]
  · rfl

theorem addSource_again (s : Session) (mid : Mid) (m : Section) :
    (s.addSource mid m).2.addSource mid m = s.addSource mid m := by
  rw [addSource.eq_def s]
  split
  · rename_i hmedia
    have hsource := ensureSsrc_of_some (ssrc?_ensureSsrc s mid)
    rw [addSource, if_pos hmedia, hsource]
  · rename_i hmedia
    rw [addSource, if_neg hmedia]

theorem writesAs_addSource (s : Session) (mid : Mid) (m : Section) (mid' : Mid) :
    WritesAs s (s.addSource mid m).2 mid' := by
  rw [addSource]
  split
  · exact writesAs_ensureSsrc s mid mid'
  · exact .refl s mid'

theorem dressed_congr (h : WritesAs s s' mid) (setup : Option Setup) (m : Section) :
    s'.dressed mid setup m = s.dressed mid setup m := by
  have hice : s'.iceAttrs = s.iceAttrs := by rw [iceAttrs, iceAttrs, h.credentials_eq]
  have hdtls : s'.dtlsAttrs setup = s.dtlsAttrs setup := by
    cases setup with
    | none => rfl
    | some v => rw [dtlsAttrs, dtlsAttrs, h.config_eq]
  rw [dressed, dressed, settledLines, settledLines, hice, hdtls, h.config_eq]

/-- **What was written is written again**, by any session that writes as the one that wrote it. -/
theorem decorate_congr (h : WritesAs s s' mid) (hm : s.decorate mid setup m = (written, s)) :
    s'.decorate mid setup m = (written, s') := by
  cases hrej : m.isRejected with
  | true =>
    rw [decorate_of_rejected _ _ _ hrej, Prod.mk.injEq] at hm ⊢
    exact ⟨hm.1, rfl⟩
  | false =>
    rw [decorate_of_accepted _ _ _ hrej, Prod.mk.injEq] at hm
    rw [decorate_of_accepted _ _ _ hrej, dressed_congr h, addSource_congr h hm.2, h.candidates_eq,
      hm.1]

/-- Writing a section twice gives it twice, and the second time nothing is drawn. -/
theorem decorate_again (s : Session) (mid : Mid) (setup : Option Setup) (m : Section) :
    (s.decorate mid setup m).2.decorate mid setup m = s.decorate mid setup m := by
  cases hrej : m.isRejected with
  | true => rw [decorate_of_rejected s _ _ hrej, decorate_of_rejected s _ _ hrej]
  | false =>
    have hwrites := writesAs_addSource s mid (s.dressed mid setup m) mid
    rw [decorate_of_accepted s _ _ hrej, decorate_of_accepted _ _ _ hrej, dressed_congr hwrites,
      addSource_again, hwrites.candidates_eq]

theorem writesAs_decorate (s : Session) (mid : Mid) (setup : Option Setup) (m : Section)
    (mid' : Mid) : WritesAs s (s.decorate mid setup m).2 mid' := by
  cases hrej : m.isRejected with
  | true =>
    rw [decorate_of_rejected s _ _ hrej]
    exact .refl s mid'
  | false =>
    rw [decorate_of_accepted s _ _ hrej]
    exact writesAs_addSource s mid _ mid'

theorem decorateAll_again (s : Session) (qs : List (Planned × Option Setup)) :
    List.Forall₂ (fun x m ↦ (s.decorateAll qs).2.decorate x.1.mid x.2 x.1.body =
      (m, (s.decorateAll qs).2)) qs (s.decorateAll qs).1 ∧
      ∀ mid, WritesAs s (s.decorateAll qs).2 mid := by
  induction qs generalizing s with
  | nil => exact ⟨.nil, fun mid ↦ .refl s mid⟩
  | cons q qs ih =>
    obtain ⟨hrest, hwrites⟩ := ih (s.decorate q.1.mid q.2 q.1.body).2
    rw [decorateAll]
    refine ⟨.cons ?_ hrest, fun mid ↦ (writesAs_decorate s _ _ _ mid).trans (hwrites mid)⟩
    -- later sections leave the source of the first one alone
    exact decorate_congr (hwrites q.1.mid) (decorate_again s q.1.mid q.2 q.1.body)

/-- Sections that can be written again are, in order, and nothing is drawn. -/
theorem decorateAll_eq_self {qs : List (Planned × Option Setup)} {ms : List Section}
    (h : List.Forall₂ (fun x m ↦ s.decorate x.1.mid x.2 x.1.body = (m, s)) qs ms) :
    s.decorateAll qs = (ms, s) := by
  induction h with
  | nil => rfl
  | cons hone _ ih =>
    rw [decorateAll, hone]
    dsimp only
    rw [ih]

/-- A description that is written as the last one does not move the version on. -/
theorem compose_of_ours {last : Description} {attrs : List Attribute} (hours : s.ours = some last)
    (hlast : last = s.draft s.version attrs last.sections) :
    s.compose attrs last.sections = (last, s) := by
  have hversion : s.nextVersion attrs last.sections = s.version := by
    have hsame : last.session.version = s.version := congrArg (·.session.version) hlast
    rw [nextVersion, hours]
    dsimp only
    rw [hsame, if_pos hlast.symm]
  rw [compose, hversion, ← hlast]

/-! ## Sections that are held -/

/-- A section that a session has written, with the endpoint that carries it and the source it has
there, and would write again. -/
structure Holds (s : Session) (mid : Mid) (setup : Option Setup) (body written : Section) :
    Prop where
  /-- It was not rejected. -/
  accepted : body.isRejected = false
  /-- An endpoint carries it, and with its ports it is written. -/
  written : ∃ e ∈ s.transport.endpoints, mid ∈ e.mids ∧
    s.decorate mid setup (Placement.writePorts e body) = (written, s)

theorem Holds.mono (h : s.Holds mid setup body written) (hwrites : WritesAs s s' mid)
    {kept : Mid → Prop} (hkeeps : Keeps kept s.transport s'.transport) (hmid : kept mid) :
    s'.Holds mid setup body written := by
  obtain ⟨e, he, hcarries, hdecorate⟩ := h.written
  obtain ⟨e', he', -, hrtp, hrtcp, hcarries'⟩ := hkeeps e he mid hcarries hmid
  refine ⟨h.accepted, e', he', hcarries', ?_⟩
  rw [Placement.writePorts_congr hrtp hrtcp]
  exact decorate_congr hwrites hdecorate

end Session

/-! ## Placing sections that are carried -/

namespace Placement

variable {p : Placement} {b : TransportBinding} {q r : Planned}

/-- What becomes of a planned section that needs no endpoint: it is rejected, or it is carried
already. -/
inductive Seated (b : TransportBinding) (q : Planned) : Planned → Prop where
  /-- It stays rejected. -/
  | rejected : q.body.isRejected = true → Seated b q q
  /-- It takes the ports of the endpoint that carries it. -/
  | carried {e : Endpoint} : q.body.isRejected = false → e ∈ b.endpoints → q.mid ∈ e.mids →
    Seated b q { q with body := writePorts e q.body }

theorem placeOne_of_seated (hexcl : b.Exclusive) (hp : p.transport = b) (h : Seated b q r)
    (range : PortRange) (isBundled : Mid → Bool) (refuse : Section → Section) :
    ∃ p', placeOne range isBundled refuse q p = (.ok r, p') ∧ p'.transport = b ∧
      p'.ports = p.ports := by
  subst hp
  rw [placeOne]
  cases h with
  | rejected hrej => exact ⟨p, by rw [if_pos hrej], rfl, rfl⟩
  | @carried e hrej he hmid =>
    have hcarrier : p.transport.carrier? q.mid = some e.id :=
      hexcl.carrier?_eq_some.mpr ⟨e, he, rfl, hmid⟩
    have hendpoint : p.transport.endpoint? e.id = some e := hexcl.endpoint?_eq_some.mpr ⟨he, rfl⟩
    refine ⟨p.settle (isBundled q.mid) e.id, ?_, transport_settle p _ _, ?_⟩
    · rw [hrej, if_neg Bool.false_ne_true, place, hcarrier]
      dsimp only
      rw [applyPorts_of_endpoint? hendpoint]
    · rw [settle]
      split <;> rfl

/-- **Placing what is carried takes nothing**: no endpoint and no port. -/
theorem placeAll_of_seated (hexcl : b.Exclusive) (hp : p.transport = b)
    {plan : List (Planned × (Section → Section))} {placed : List Planned}
    (h : List.Forall₂ (fun x r ↦ Seated b x.1 r) plan placed) (range : PortRange)
    (isBundled : Mid → Bool) : ∃ p', placeAll range isBundled plan p = (.ok placed, p') ∧
      p'.transport = b ∧ p'.ports = p.ports := by
  induction h generalizing p with
  | nil => exact ⟨p, rfl, hp, rfl⟩
  | @cons x r plan placed hone _ ih =>
    obtain ⟨p₁, hplace, hp₁, hports₁⟩ := placeOne_of_seated hexcl hp hone range isBundled x.2
    obtain ⟨p₂, hrest, hp₂, hports₂⟩ := ih hp₁
    refine ⟨p₂, ?_, hp₂, hports₂.trans hports₁⟩
    rw [placeAll, hplace]
    dsimp only
    rw [hrest]

end Placement

end OfferAnswer
