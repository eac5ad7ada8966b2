import OfferAnswer.Proofs.Correlation.History
import OfferAnswer.Proofs.Correlation.Rebinding
import OfferAnswer.Proofs.Session.Atomic
import OfferAnswer.Proofs.Session.Conclusion
import OfferAnswer.Proofs.Session.Upkeep

/-!
# What an exchange does to the streams of the peer

The streams of the peer are found by two tables: the bindings of remote sources, and for each
endpoint the sections of payload types. Only the commit of an exchange writes in them. Rejected
sections take out what is theirs, and accepted sections put in what they declare and list, one after
the other. `Concludes.bindings` and `Concludes.types` are the account of that, for one remote source
and for one payload type.

Both tables are read by key, so nothing is found behind what is taken out only because keys are
unique. That they are, and that the bindings are open as long as the session is, is an invariant:
`StreamsKeyed`.
-/

namespace OfferAnswer.Session

open CorrelationTable (hear)

variable {s s' base : Session} {ports : PortAllocator} {ns : List NegotiatedMedia} {mid : Mid}
  {id : EndpointId} {remote answer : Description}

/-! ## Rejected sections and bindings -/

theorem ssrc?_dropSsrc (s : Session) (mid : Mid) : (s.dropSsrc mid).ssrc? mid = none := by
  rw [dropSsrc]
  cases h : s.ssrc? mid with
  | none => exact h
  | some v => simp [ssrc?, List.find?_filter]

theorem closed_dropSsrc (s : Session) (mid : Mid) :
    (s.dropSsrc mid).correlation.closed = s.correlation.closed := by
  rw [dropSsrc]
  split <;> rfl

theorem keyed_dropSsrc (h : s.correlation.Keyed) (mid : Mid) :
    (s.dropSsrc mid).correlation.Keyed := by
  rw [dropSsrc]
  split
  · exact h.filter rfl
  · exact h

theorem binding?_dropSsrc (h : s.correlation.Keyed) (mid : Mid) {r : Ssrc} {b : SsrcBinding} :
    (s.dropSsrc mid).correlation.binding? r = some b ↔
      s.correlation.binding? r = some b ∧ s.ssrc? mid ≠ some b.source := by
  rw [dropSsrc]
  cases hv : s.ssrc? mid with
  | none => simp
  | some v =>
    dsimp only
    rw [h.binding?_unbindSource, Option.filter_eq_some_iff, bne_iff_ne, ne_comm, ne_eq, ne_eq,
      Option.some_inj]

/-- Whether a source of ours belongs to a section without an endpoint. -/
def GivesUp (s : Session) (ns : List NegotiatedMedia) (source : Ssrc) : Prop :=
  ∃ n ∈ ns, n.endpoint = none ∧ s.ssrc? n.mid = some source

/-- Rejected sections take out what is bound to their sources, and nothing else. -/
theorem bindings_releaseRejected (h : s.correlation.Keyed) (ports : PortAllocator)
    (ns : List NegotiatedMedia) :
    (s.releaseRejected ports ns).1.correlation.Keyed ∧
      (s.releaseRejected ports ns).1.correlation.closed = s.correlation.closed ∧
        ∀ r b, (s.releaseRejected ports ns).1.correlation.binding? r = some b ↔
          s.correlation.binding? r = some b ∧ ¬s.GivesUp ns b.source := by
  induction ns generalizing s ports with
  | nil =>
    refine ⟨h, rfl, fun r b ↦ (and_iff_left ?_).symm⟩
    rintro ⟨n, hn, -⟩
    exact List.not_mem_nil hn
  | cons n ns ih =>
    rw [releaseRejected]
    by_cases hnone : n.endpoint.isNone = true
    · rw [if_pos hnone]
      dsimp only
      let next : Session := { s with transport := (s.transport.releaseMid ports n.mid).1 }
      have hnext : next.correlation.Keyed := h
      -- the sections behind the first give up what it has left of the session
      obtain ⟨hkeyed, hclosed, hiff⟩ := ih (keyed_dropSsrc hnext n.mid)
        (s.transport.releaseMid ports n.mid).2
      refine ⟨hkeyed, hclosed.trans (closed_dropSsrc next n.mid), fun r b ↦ ?_⟩
      rw [hiff, binding?_dropSsrc hnext n.mid, and_assoc]
      refine and_congr_right fun _ ↦ ⟨?_, fun hkept ↦ ⟨fun hown ↦ hkept ?_, ?_⟩⟩
      · rintro ⟨hother, hrest⟩ ⟨n', hn', hnone', hsource⟩
        have hne : n.mid ≠ n'.mid := fun heq ↦ hother (heq ▸ hsource)
        rcases List.mem_cons.mp hn' with rfl | hn'
        · exact hne rfl
        · refine hrest ⟨n', hn', hnone', ?_⟩
          rw [ssrc?_dropSsrc_of_ne hne]
          exact hsource
      · exact ⟨n, List.mem_cons_self, Option.isNone_iff_eq_none.mp hnone, hown⟩
      · rintro ⟨n', hn', hnone', hsource⟩
        -- a section of the same name has lost its source with the first one
        have hne : n.mid ≠ n'.mid := by
          intro heq
          rw [← heq, ssrc?_dropSsrc] at hsource
          cases hsource
        rw [ssrc?_dropSsrc_of_ne hne] at hsource
        exact hkept ⟨n', List.mem_cons_of_mem n hn', hnone', hsource⟩
    · rw [if_neg hnone]
      obtain ⟨hkeyed, hclosed, hiff⟩ := ih h ports
      refine ⟨hkeyed, hclosed, fun r b ↦ (hiff r b).trans (and_congr_right fun _ ↦ not_congr ?_)⟩
      constructor
      · rintro ⟨n', hn', hrest⟩
        exact ⟨n', List.mem_cons_of_mem n hn', hrest⟩
      · rintro ⟨n', hn', hnone', hsource⟩
        rcases List.mem_cons.mp hn' with rfl | hn'
        · exact absurd (Option.isNone_iff_eq_none.mpr hnone') hnone
        · exact ⟨n', hn', hnone', hsource⟩

/-! ## Accepted sections and bindings -/

theorem followEndpoint_eq (s : Session) (id : EndpointId) :
    ∃ connection, s.followEndpoint id = { s with connection := connection } := by
  rw [followEndpoint]
  split
  · exact ⟨s.connection, rfl⟩
  · exact ⟨_, rfl⟩

theorem register_of_other {n : NegotiatedMedia} (hkind : n.kind.isMedia = false) (s : Session)
    (endpoint : EndpointId) (m : Section) (formats : List String) :
    ∃ connection, s.register n endpoint m formats =
      { s with
        transport := addCandidates s.transport endpoint m.candidates
        connection := connection } := by
  obtain ⟨connection, hfollow⟩ := followEndpoint_eq
    { s with transport := addCandidates s.transport endpoint m.candidates } endpoint
  refine ⟨connection, ?_⟩
  rw [register, hkind, if_neg Bool.false_ne_true, hfollow]

theorem register_of_media {n : NegotiatedMedia} (hkind : n.kind.isMedia = true) (s : Session)
    (endpoint : EndpointId) (m : Section) (formats : List String) :
    let ready : Session := { s with transport := addCandidates s.transport endpoint m.candidates }
    ∃ connection, s.register n endpoint m formats =
      { ready.registerMedia n.mid endpoint m formats with connection := connection } := by
  intro ready
  obtain ⟨connection, hfollow⟩ := followEndpoint_eq
    (ready.registerMedia n.mid endpoint m formats) endpoint
  refine ⟨connection, ?_⟩
  rw [register, hkind, if_pos rfl, hfollow]

theorem bindings_register_of_media {n : NegotiatedMedia} (hkind : n.kind.isMedia = true)
    (s : Session) (endpoint : EndpointId) (m : Section) (formats : List String) :
    ∃ v, (s.register n endpoint m formats).ssrc? n.mid = some v ∧
      (s.register n endpoint m formats).correlation =
        correlate s.correlation v (staleSsrcs s.correlation v m.ssrcs) m.ssrcs := by
  let ready : Session := { s with transport := addCandidates s.transport endpoint m.candidates }
  have hsource := ssrc?_ensureSsrc ready n.mid
  obtain ⟨ssrcs, e, hdrawn⟩ := ensureSsrc_eq ready n.mid
  obtain ⟨connection, hregister⟩ := register_of_media hkind s endpoint m formats
  rw [hregister]
  have hbinds : (ready.registerMedia n.mid endpoint m formats).correlation =
      correlate (ready.ensureSsrc n.mid).2.correlation (ready.ensureSsrc n.mid).1
        (staleSsrcs (ready.ensureSsrc n.mid).2.correlation (ready.ensureSsrc n.mid).1 m.ssrcs)
        m.ssrcs := rfl
  refine ⟨(ready.ensureSsrc n.mid).1, hsource, hbinds.trans ?_⟩
  rw [hdrawn]
  rfl

/-- Registers a section if it has an endpoint. -/
def registerOne (s : Session) (n : NegotiatedMedia) (m : Section) (formats : List String) :
    Session :=
  match n.endpoint with
  | some endpoint => s.register n endpoint m formats
  | none => s

/-- The formats of a section of a description. -/
def formatsAt (answer : Description) (i : Nat) : List String :=
  (answer.sections[i]?.map Section.formats).getD []

theorem registerAll_of_end {i : Nat} (h : remote.sections.drop i = []) (s : Session)
    (answer : Description) (ns : List NegotiatedMedia) : s.registerAll remote answer i ns = s := by
  induction ns generalizing i with
  | nil => rfl
  | cons n ns ih =>
    have hnone : remote.sections[i]? = none := by
      rw [← List.head?_drop, h, List.head?_nil]
    have hrest : remote.sections.drop (i + 1) = [] := by
      rw [← List.tail_drop, h, List.tail_nil]
    rw [registerAll, hnone]
    cases n.endpoint <;> exact ih hrest

theorem registerAll_cons {i : Nat} {m : Section} {ms : List Section}
    (h : remote.sections.drop i = m :: ms) (s : Session) (answer : Description)
    (n : NegotiatedMedia) (ns : List NegotiatedMedia) :
    remote.sections.drop (i + 1) = ms ∧ s.registerAll remote answer i (n :: ns) =
      (s.registerOne n m (formatsAt answer i)).registerAll remote answer (i + 1) ns := by
  have hsome : remote.sections[i]? = some m := by
    rw [← List.head?_drop, h, List.head?_cons]
  have hrest : remote.sections.drop (i + 1) = ms := by
    rw [← List.tail_drop, h, List.tail_cons]
  refine ⟨hrest, ?_⟩
  rw [registerAll, hsome, registerOne]
  cases n.endpoint <;> rfl

/-- What we listen to in a section: if it is accepted audio or video, what it declares for our
source. -/
def heard? (s : Session) (x : NegotiatedMedia × Section) : Option Heard :=
  if x.1.rejected = false ∧ x.2.kind.isMedia = true then
    (s.ssrc? x.1.mid).map fun source ↦ ⟨source, x.2.ssrcs⟩
  else none

/-- The sections that we listen to. -/
def heards (s : Session) (ns : List NegotiatedMedia) (ms : List Section) : List Heard :=
  (ns.zip ms).filterMap s.heard?

theorem heards_cons (s : Session) (n : NegotiatedMedia) (ns : List NegotiatedMedia) (m : Section)
    (ms : List Section) :
    s.heards (n :: ns) (m :: ms) = (s.heard? (n, m)).toList ++ s.heards ns ms := by
  rw [heards, List.zip_cons_cons, List.filterMap_cons]
  cases s.heard? (n, m) <;> rfl

/-- An outcome and the section that it is of: it has an endpoint if it is accepted, and the kind of
the section. -/
def Matched (x : NegotiatedMedia × Section) : Prop :=
  (x.1.endpoint = none ↔ x.1.rejected = true) ∧ x.1.kind = x.2.kind

/-- One section: it is not listened to and binds nothing, or it has a source and binds to it. -/
theorem bindings_registerOne {n : NegotiatedMedia} {m : Section} (hmatched : Matched (n, m))
    (s : Session) (formats : List String) :
    (¬(n.rejected = false ∧ m.kind.isMedia = true) ∧
        (s.registerOne n m formats).correlation = s.correlation) ∨
      (n.rejected = false ∧ m.kind.isMedia = true) ∧
        ∃ v, (s.registerOne n m formats).ssrc? n.mid = some v ∧
          (s.registerOne n m formats).correlation =
            correlate s.correlation v (staleSsrcs s.correlation v m.ssrcs) m.ssrcs := by
  obtain ⟨hends, hkind⟩ := hmatched
  dsimp only at hends hkind
  rw [registerOne]
  cases hend : n.endpoint with
  | none =>
    have hrej : n.rejected = true := hends.mp hend
    exact .inl ⟨fun hc ↦ Bool.false_ne_true (hc.1.symm.trans hrej), rfl⟩
  | some endpoint =>
    have hacc : n.rejected = false := by
      rw [← Bool.not_eq_true, ← hends, hend]
      exact Option.some_ne_none endpoint
    by_cases hmedia : m.kind.isMedia = true
    · exact .inr ⟨⟨hacc, hmedia⟩, bindings_register_of_media (hkind ▸ hmedia) s endpoint m formats⟩
    · refine .inl ⟨fun hc ↦ hmedia hc.2, ?_⟩
      rw [← hkind, Bool.not_eq_true] at hmedia
      obtain ⟨connection, hregister⟩ := register_of_other hmedia s endpoint m formats
      dsimp only
      rw [hregister]

/-- **Accepted sections** are heard one after the other. -/
theorem bindings_registerAll {i : Nat} {ms : List Section} (hms : remote.sections.drop i = ms)
    (hmatched : ∀ x ∈ ns.zip ms, Matched x) (h : s.correlation.Keyed)
    (hopen : s.correlation.closed = false) (answer : Description) :
    (s.registerAll remote answer i ns).correlation.Keyed ∧
      (s.registerAll remote answer i ns).correlation.closed = false ∧
        ∀ r, (s.registerAll remote answer i ns).correlation.binding? r =
          ((s.registerAll remote answer i ns).heards ns ms).foldl (hear r)
            (s.correlation.binding? r) := by
  induction ns generalizing s i ms with
  | nil => exact ⟨h, hopen, fun _ ↦ rfl⟩
  | cons n ns ih =>
    cases ms with
    | nil =>
      rw [registerAll_of_end hms]
      exact ⟨h, hopen, fun _ ↦ rfl⟩
    | cons m ms =>
      obtain ⟨hrest, hstep⟩ := registerAll_cons hms s answer n ns
      have hrestMatched : ∀ x ∈ ns.zip ms, Matched x := fun x hx ↦
        hmatched x (List.mem_cons_of_mem _ hx)
      rw [hstep]
      rcases bindings_registerOne (hmatched (n, m) List.mem_cons_self) s (formatsAt answer i) with
        ⟨hunheard, hsame⟩ | ⟨hheard, v, hv, hcorrelate⟩
      · rw [← hsame] at h hopen
        obtain ⟨hkeyed, hopen', hbinding⟩ := ih hrest hrestMatched h hopen
        refine ⟨hkeyed, hopen', fun r ↦ ?_⟩
        rw [hbinding, hsame, heards_cons, heard?, if_neg hunheard]
        rfl
      · have hkeyed' := h.correlate v (staleSsrcs s.correlation v m.ssrcs) m.ssrcs
        have hopen' : (correlate s.correlation v (staleSsrcs s.correlation v m.ssrcs)
            m.ssrcs).closed = false := (CorrelationTable.closed_correlate _ _ _ _).trans hopen
        rw [← hcorrelate] at hkeyed' hopen'
        obtain ⟨hkeyed, hopen'', hbinding⟩ := ih hrest hrestMatched hkeyed' hopen'
        refine ⟨hkeyed, hopen'', fun r ↦ ?_⟩
        -- its source is the one it has in the end
        rw [hbinding, heards_cons, heard?, if_pos hheard,
          ssrc?_registerAll hv remote answer (i + 1) ns, hcorrelate]
        exact congrArg (List.foldl (hear r) · _) (h.binding?_correlate hopen ⟨v, m.ssrcs⟩ r)

theorem heard_registerAll {i : Nat} {ms : List Section} (hms : remote.sections.drop i = ms)
    (hmatched : ∀ x ∈ ns.zip ms, Matched x) (s : Session) (answer : Description)
    {x : NegotiatedMedia × Section} (hx : x ∈ ns.zip ms) (hacc : x.1.rejected = false)
    (hmedia : x.2.kind.isMedia = true) :
    ∃ v, (s.registerAll remote answer i ns).ssrc? x.1.mid = some v := by
  induction ns generalizing s i ms with
  | nil => exact absurd hx List.not_mem_nil
  | cons n ns ih =>
    cases ms with
    | nil => exact absurd hx List.not_mem_nil
    | cons m ms =>
      obtain ⟨hrest, hstep⟩ := registerAll_cons hms s answer n ns
      rw [hstep]
      rcases List.mem_cons.mp hx with rfl | hx
      · rcases bindings_registerOne (hmatched (n, m) List.mem_cons_self) s (formatsAt answer i) with
          ⟨hunheard, -⟩ | ⟨-, v, hv, -⟩
        · exact absurd ⟨hacc, hmedia⟩ hunheard
        · exact ⟨v, ssrc?_registerAll hv remote answer (i + 1) ns⟩
      · exact ih hrest (fun y hy ↦ hmatched y (List.mem_cons_of_mem _ hy)) _ hx

/-! ## Rejected sections and payload types -/

theorem released_cons {n : NegotiatedMedia} :
    Released (n :: ns) mid ↔ (n.endpoint = none ∧ n.mid = mid) ∨ Released ns mid := by
  simp only [Released, List.exists_mem_cons_iff]

theorem types_releaseMid {b : TransportBinding} (hb : b.Exclusive) (a : PortAllocator)
    (gone : Mid) (halive : (b.releaseMid a gone).1.isAlive id = true)
    (h : (b.demuxOf id).TypesKeyed) :
    ((b.releaseMid a gone).1.demuxOf id).TypesKeyed ∧
      ∀ t mid, ((b.releaseMid a gone).1.demuxOf id).ofType? t = some mid ↔
        (b.demuxOf id).ofType? t = some mid ∧ ¬(mid = gone ∧ b.carrier? mid = some id) := by
  rw [TransportBinding.demuxOf_releaseMid hb.toWellFormed a gone halive]
  by_cases hcarrier : b.carrier? gone = some id
  · rw [if_pos hcarrier]
    refine ⟨h.removeMid gone, fun t mid ↦ ?_⟩
    rw [h.ofType?_removeMid, Option.filter_eq_some_iff, bne_iff_ne]
    refine and_congr_right fun _ ↦ ⟨fun hne hc ↦ hne hc.1, fun hkept heq ↦ hkept ⟨heq, ?_⟩⟩
    rwa [heq]
  · rw [if_neg hcarrier]
    exact ⟨h, fun t mid ↦ ⟨fun ht ↦ ⟨ht, fun hc ↦ hcarrier (hc.1 ▸ hc.2)⟩, And.left⟩⟩

theorem isAlive_of_releaseRejected (hs : s.transport.Exclusive)
    (halive : (s.releaseRejected ports ns).1.transport.isAlive id = true) :
    s.transport.isAlive id = true := by
  obtain ⟨e, he, hid⟩ := TransportBinding.isAlive_iff.mp halive
  obtain ⟨-, -, hsides, -⟩ := transport_releaseRejected hs ports ns
  obtain ⟨e₀, he₀, hid₀, -⟩ := hsides e he
  exact TransportBinding.isAlive_iff.mpr ⟨e₀, he₀, hid₀.trans hid⟩

/-- Rejected sections take out of an endpoint that stays what they have there, and nothing else. -/
theorem types_releaseRejected (hs : s.transport.Exclusive) (ports : PortAllocator)
    (ns : List NegotiatedMedia)
    (halive : (s.releaseRejected ports ns).1.transport.isAlive id = true)
    (h : (s.transport.demuxOf id).TypesKeyed) :
    ((s.releaseRejected ports ns).1.transport.demuxOf id).TypesKeyed ∧
      ∀ t mid, ((s.releaseRejected ports ns).1.transport.demuxOf id).ofType? t = some mid ↔
        (s.transport.demuxOf id).ofType? t = some mid ∧
          ¬(Released ns mid ∧ s.transport.carrier? mid = some id) := by
  induction ns generalizing s ports with
  | nil =>
    refine ⟨h, fun t mid ↦ (and_iff_left ?_).symm⟩
    rintro ⟨⟨n, hn, -⟩, -⟩
    exact List.not_mem_nil hn
  | cons n ns ih =>
    rw [releaseRejected] at halive ⊢
    by_cases hnone : n.endpoint.isNone = true
    · rw [if_pos hnone] at halive ⊢
      dsimp only at halive ⊢
      let next : Session := { s with transport := (s.transport.releaseMid ports n.mid).1 }
      have hnext : (next.dropSsrc n.mid).transport = next.transport := transport_dropSsrc _ n.mid
      obtain ⟨hexcl, hkeeps⟩ := hs.releaseMid ports n.mid
      have hexcl' : (next.dropSsrc n.mid).transport.Exclusive := hnext.symm ▸ hexcl
      have halive' := isAlive_of_releaseRejected hexcl' halive
      rw [hnext] at halive'
      obtain ⟨hkeyed, hone⟩ := types_releaseMid hs ports n.mid halive' h
      obtain ⟨hkeyed', hrest⟩ := ih hexcl' _ halive (hnext.symm ▸ hkeyed)
      refine ⟨hkeyed', fun t mid ↦ ?_⟩
      rw [hrest, hnext, hone, and_assoc]
      refine and_congr_right fun _ ↦ ?_
      by_cases hmid : mid = n.mid
      · -- it is given up with the first section, and carried no more after that
        subst hmid
        have hgone : next.transport.carrier? n.mid = none := hs.carrier?_releaseMid ports (.inl rfl)
        have hfirst : Released (n :: ns) n.mid :=
          released_cons.mpr (.inl ⟨Option.isNone_iff_eq_none.mp hnone, rfl⟩)
        simp [hgone, hfirst]
      · have hreleased : Released (n :: ns) mid ↔ Released ns mid := by
          rw [released_cons]
          exact or_iff_right fun hfirst ↦ hmid hfirst.2.symm
        have hcarrier : next.transport.carrier? mid = s.transport.carrier? mid := by
          cases hc : s.transport.carrier? mid with
          | none => exact hs.carrier?_releaseMid ports (.inr hc)
          | some id' => exact hkeeps.carrier? hexcl hmid hc
        simp [hmid, hreleased, hcarrier]
    · rw [if_neg hnone] at halive ⊢
      obtain ⟨hkeyed, hiff⟩ := ih hs ports halive h
      refine ⟨hkeyed, fun t mid ↦ (hiff t mid).trans (and_congr_right fun _ ↦ not_congr ?_)⟩
      rw [released_cons]
      refine and_congr_left fun _ ↦ (or_iff_right fun hfirst ↦ hnone ?_).symm
      exact Option.isNone_iff_eq_none.mpr hfirst.1

/-! ## Accepted sections and payload types -/

theorem ofType?_demultiplex (d : Demux) (mid : Mid) (stale declared : List Ssrc)
    (types : List PayloadType) (t : PayloadType) :
    (demultiplex d mid stale declared types).ofType? t =
      (d.ofType? t).or (if t ∈ types then some mid else none) := by
  rw [demultiplex, Demux.ofType?_addTypes, Demux.ofType?, Demux.byType_addSsrcs,
    Demux.byType_removeSsrcs]
  rfl

theorem typesKeyed_demultiplex {d : Demux} (h : d.TypesKeyed) (mid : Mid)
    (stale declared : List Ssrc) (types : List PayloadType) :
    (demultiplex d mid stale declared types).TypesKeyed := by
  refine Demux.TypesKeyed.addTypes ?_ types mid
  rw [Demux.TypesKeyed, Demux.byType_addSsrcs, Demux.byType_removeSsrcs]
  exact h

theorem demuxOf_addCandidates (b : TransportBinding) (endpoint : EndpointId)
    (cs : List Candidate) : (addCandidates b endpoint cs).demuxOf id = b.demuxOf id := by
  rw [addCandidates]
  induction cs generalizing b with
  | nil => rfl
  | cons c cs ih => exact (ih _).trans (b.demuxOf_addRemoteCandidate endpoint c)

/-- Whether an outcome is audio or video on an endpoint, with a payload type among its formats. -/
def lists (id : EndpointId) (t : PayloadType) (x : NegotiatedMedia × List String) : Bool :=
  x.1.endpoint == some id && x.1.kind.isMedia && (payloadTypes x.2).contains t

theorem outline_registerOne (s : Session) (n : NegotiatedMedia) (m : Section)
    (formats : List String) :
    (s.registerOne n m formats).transport.outline = s.transport.outline := by
  rw [registerOne]
  cases n.endpoint with
  | none => rfl
  | some endpoint =>
    obtain ⟨s', hs', h⟩ := register_eq s n endpoint m formats
    dsimp only
    rw [h]
    exact (hs'.trans (registers_followEndpoint s' endpoint)).outline_eq

theorem demuxOf_register_of_other {n : NegotiatedMedia} (hkind : n.kind.isMedia = false)
    (s : Session) (endpoint : EndpointId) (m : Section) (formats : List String) :
    (s.register n endpoint m formats).transport.demuxOf id = s.transport.demuxOf id := by
  obtain ⟨connection, hregister⟩ := register_of_other hkind s endpoint m formats
  rw [hregister]
  exact demuxOf_addCandidates s.transport endpoint m.candidates

theorem demuxOf_register_of_media {n : NegotiatedMedia} (hkind : n.kind.isMedia = true)
    (halive : s.transport.isAlive id = true) (endpoint : EndpointId) (m : Section)
    (formats : List String) :
    ∃ stale, (s.register n endpoint m formats).transport.demuxOf id =
      if id = endpoint then
        demultiplex (s.transport.demuxOf id) n.mid stale m.ssrcs (payloadTypes formats)
      else s.transport.demuxOf id := by
  -- candidates first, then a source of ours, and then what the endpoint is given
  let ready : Session := { s with transport := addCandidates s.transport endpoint m.candidates }
  let stale := staleSsrcs (ready.ensureSsrc n.mid).2.correlation (ready.ensureSsrc n.mid).1 m.ssrcs
  let give (e : Endpoint) : Endpoint :=
    { e with demux := demultiplex e.demux n.mid stale m.ssrcs (payloadTypes formats) }
  have hgives : (ready.registerMedia n.mid endpoint m formats).transport =
      (ready.ensureSsrc n.mid).2.transport.update endpoint give := rfl
  have hdrawn : (ready.ensureSsrc n.mid).2.transport = ready.transport := by
    obtain ⟨_, _, hdrawn⟩ := ensureSsrc_eq ready n.mid
    rw [hdrawn]
    rfl
  obtain ⟨connection, hregister⟩ := register_of_media hkind s endpoint m formats
  have hready : ready.transport.demuxOf id = s.transport.demuxOf id :=
    demuxOf_addCandidates s.transport endpoint m.candidates
  have halive' : ready.transport.isAlive id = true := by
    rw [TransportBinding.isAlive_congr (registers_candidates s endpoint m.candidates).outline_eq]
    exact halive
  have hgive : Endpoint.Retains give := ⟨fun _ ↦ rfl, fun _ ↦ rfl, fun _ ↦ rfl⟩
  refine ⟨stale, ?_⟩
  rw [hregister]
  rw [hdrawn] at hgives
  refine (congrArg (TransportBinding.demuxOf · id) hgives).trans ?_
  rw [TransportBinding.demuxOf_update hgive
    (g := fun d ↦ demultiplex d n.mid stale m.ssrcs (payloadTypes formats)) fun _ ↦ rfl, hready]
  by_cases hid : id = endpoint
  · rw [if_pos ⟨hid, hid ▸ halive'⟩, if_pos hid]
  · rw [if_neg fun hc ↦ hid hc.1, if_neg hid]

/-- One section: it gives its endpoint the payload types that are free there. -/
theorem types_registerOne (n : NegotiatedMedia) (m : Section) (formats : List String)
    (halive : s.transport.isAlive id = true) (h : (s.transport.demuxOf id).TypesKeyed) :
    ((s.registerOne n m formats).transport.demuxOf id).TypesKeyed ∧
      ∀ t, ((s.registerOne n m formats).transport.demuxOf id).ofType? t =
        ((s.transport.demuxOf id).ofType? t).or
          (if lists id t (n, formats) = true then some n.mid else none) := by
  rw [registerOne]
  cases hend : n.endpoint with
  | none => exact ⟨h, fun t ↦ by simp [lists, hend]⟩
  | some endpoint =>
    dsimp only
    by_cases hmedia : n.kind.isMedia = true
    · obtain ⟨stale, hdemux⟩ := demuxOf_register_of_media hmedia halive endpoint m formats
      rw [hdemux]
      by_cases hid : id = endpoint
      · rw [if_pos hid]
        refine ⟨typesKeyed_demultiplex h _ _ _ _, fun t ↦ ?_⟩
        rw [ofType?_demultiplex]
        simp [lists, hend, hmedia, hid]
      · rw [if_neg hid]
        exact ⟨h, fun t ↦ by simp [lists, hend, Ne.symm hid]⟩
    · rw [Bool.not_eq_true] at hmedia
      rw [demuxOf_register_of_other hmedia]
      exact ⟨h, fun t ↦ by simp [lists, hmedia]⟩

/-- **Accepted sections** take the payload types that nobody has, the first one first. -/
theorem types_registerAll {i : Nat} {ms as : List Section} (hms : remote.sections.drop i = ms)
    (has : answer.sections.drop i = as) (hns : ns.length = ms.length) (hlen : ms.length = as.length)
    (halive : s.transport.isAlive id = true) (h : (s.transport.demuxOf id).TypesKeyed) :
    ((s.registerAll remote answer i ns).transport.demuxOf id).TypesKeyed ∧
      ∀ t, ((s.registerAll remote answer i ns).transport.demuxOf id).ofType? t =
        ((s.transport.demuxOf id).ofType? t).or
          (((ns.zip (as.map Section.formats)).find? (lists id t)).map (·.1.mid)) := by
  induction ns generalizing s i ms as with
  | nil => exact ⟨h, fun t ↦ (Option.or_none).symm⟩
  | cons n ns ih =>
    match ms, as with
    | m :: ms, a :: as =>
      obtain ⟨hrest, hstep⟩ := registerAll_cons hms s answer n ns
      have hformats : formatsAt answer i = a.formats := by
        rw [formatsAt, ← List.head?_drop, has]
        rfl
      have has' : answer.sections.drop (i + 1) = as := by
        rw [← List.tail_drop, has, List.tail_cons]
      obtain ⟨hkeyed, hone⟩ := types_registerOne n m a.formats halive h
      have halive' : (s.registerOne n m a.formats).transport.isAlive id = true := by
        rw [TransportBinding.isAlive_congr (outline_registerOne s n m a.formats)]
        exact halive
      rw [hstep, hformats]
      obtain ⟨hkeyed', htypes⟩ :=
        ih hrest has' (Nat.succ.inj hns) (Nat.succ.inj hlen) halive' hkeyed
      refine ⟨hkeyed', fun t ↦ ?_⟩
      -- the first section takes its types before the others come
      rw [htypes, hone, Option.or_assoc, List.map_cons, List.zip_cons_cons]
      by_cases hlists : lists id t (n, a.formats) = true
      · rw [if_pos hlists, List.find?_cons_of_pos hlists]
        rfl
      · rw [if_neg hlists, List.find?_cons_of_neg hlists, Option.none_or]

/-! ## The commit -/

/-- A commit gives sections up, and then registers sections. -/
theorem commit_eq (base : Session) (ports : PortAllocator) (remote answer : Description)
    (ns : List NegotiatedMedia) (positions : List (Option Nat)) :
    ∃ connection, (base.commit ports remote answer ns positions).1 =
      { ({ (base.releaseRejected ports ns).1 with connection := connection } : Session).registerAll
          remote answer 0 ns with
        restartPending := false
        negotiated := ns
        sectionHandlers := positions } := by
  obtain ⟨connection, hdetect, -⟩ := detectRestart_forgetGone_eq (base.releaseRejected ports ns).1
    (base.transport.endpoints.map (·.id)) remote
  exact ⟨connection, by rw [commit, ← hdetect]⟩

theorem ssrc?_congr (h : s'.ssrcs = s.ssrcs) (mid : Mid) : s'.ssrc? mid = s.ssrc? mid := by
  rw [ssrc?, ssrc?, h]

theorem heards_congr (h : s'.ssrcs = s.ssrcs) (ns : List NegotiatedMedia) (ms : List Section) :
    s'.heards ns ms = s.heards ns ms := by
  have hsame : s'.heard? = s.heard? := by
    funext x
    rw [heard?, heard?, ssrc?_congr h]
  rw [heards, heards, hsame]

theorem Concludes.matched (h : Concludes s base s' remote answer) :
    ∀ x ∈ s'.negotiated.zip remote.sections, Matched x := by
  intro x hx
  obtain ⟨i, hi⟩ := List.mem_iff_getElem?.mp hx
  obtain ⟨hn, hm⟩ := List.getElem?_zip_eq_some.mp hi
  exact ⟨h.endpoint_iff x.1 (List.mem_of_getElem? hn), h.kind_eq i x.1 x.2 hn hm⟩

/-- **Bindings after an exchange**: what is bound to the source of a rejected section is gone, and
then the accepted sections are heard. -/
theorem Concludes.bindings (h : Concludes s base s' remote answer) (hkeyed : s.correlation.Keyed)
    (hopen : s.correlation.closed = false) :
    s'.correlation.Keyed ∧ s'.correlation.closed = false ∧
      ∀ r, ∃ kept, (∀ b, kept = some b ↔
          s.correlation.binding? r = some b ∧ ¬base.GivesUp s'.negotiated b.source) ∧
        s'.correlation.binding? r =
          (s'.heards s'.negotiated remote.sections).foldl (hear r) kept := by
  obtain ⟨ports, positions, -, hcorrelation, hssrcs⟩ := h.committed
  obtain ⟨connection, hcommit⟩ := commit_eq base ports remote answer s'.negotiated positions
  rw [hcommit] at hcorrelation hssrcs
  rw [← h.correlation_eq] at hkeyed hopen ⊢
  obtain ⟨hkeyed₁, hclosed₁, hreleased⟩ := bindings_releaseRejected hkeyed ports s'.negotiated
  obtain ⟨hkeyed₂, hopen₂, hheard⟩ := bindings_registerAll
    (s := { (base.releaseRejected ports s'.negotiated).1 with connection := connection })
    List.drop_zero h.matched hkeyed₁ (hclosed₁.trans hopen) answer
  rw [heards_congr hssrcs, hcorrelation]
  exact ⟨hkeyed₂, hopen₂, fun r ↦ ⟨_, hreleased r, hheard r⟩⟩

/-- An accepted audio or video section is heard after the exchange. -/
theorem Concludes.heard (h : Concludes s base s' remote answer) {x : NegotiatedMedia × Section}
    (hx : x ∈ s'.negotiated.zip remote.sections) (hacc : x.1.rejected = false)
    (hmedia : x.2.kind.isMedia = true) :
    ∃ v, s'.ssrc? x.1.mid = some v ∧ ⟨v, x.2.ssrcs⟩ ∈ s'.heards s'.negotiated remote.sections := by
  obtain ⟨ports, positions, -, -, hssrcs⟩ := h.committed
  obtain ⟨connection, hcommit⟩ := commit_eq base ports remote answer s'.negotiated positions
  rw [hcommit] at hssrcs
  obtain ⟨v, hv⟩ := heard_registerAll List.drop_zero h.matched
    { (base.releaseRejected ports s'.negotiated).1 with connection := connection } answer hx hacc
    hmedia
  have hsource : s'.ssrc? x.1.mid = some v := (ssrc?_congr hssrcs x.1.mid).trans hv
  refine ⟨v, hsource, List.mem_filterMap.mpr ⟨x, hx, ?_⟩⟩
  rw [heard?, if_pos ⟨hacc, hmedia⟩, hsource]
  rfl

/-- **Payload types after an exchange**, at an endpoint that is live: what rejected sections had
there is gone, and then each type that is free goes to the first accepted section that lists it. -/
theorem Concludes.types (h : Concludes s base s' remote answer)
    (halive : s'.transport.isAlive id = true) (hkeyed : (s.transport.demuxOf id).TypesKeyed) :
    (s'.transport.demuxOf id).TypesKeyed ∧
      ∀ t, ∃ kept, (∀ mid, kept = some mid ↔ (s.transport.demuxOf id).ofType? t = some mid ∧
          ¬(Released s'.negotiated mid ∧ base.transport.carrier? mid = some id)) ∧
        (s'.transport.demuxOf id).ofType? t = kept.or
          (((s'.negotiated.zip (answer.sections.map Section.formats)).find? (lists id t)).map
            (·.1.mid)) := by
  obtain ⟨ports, positions, htransport, -⟩ := h.committed
  obtain ⟨connection, hcommit⟩ := commit_eq base ports remote answer s'.negotiated positions
  let released : Session :=
    { (base.releaseRejected ports s'.negotiated).1 with connection := connection }
  have hcommitted : s'.transport =
      (released.registerAll remote answer 0 s'.negotiated).transport := by
    rw [htransport, hcommit]
  have hreleased : released.transport.isAlive id = true := by
    have houtline := (registers_registerAll released remote answer 0 s'.negotiated).outline_eq
    rw [← TransportBinding.isAlive_congr houtline, ← hcommitted]
    exact halive
  rw [← h.demux_eq] at hkeyed ⊢
  obtain ⟨hkeyed₁, hgone⟩ :=
    types_releaseRejected h.exclusive ports s'.negotiated hreleased hkeyed
  obtain ⟨hkeyed₂, htypes⟩ := types_registerAll (s := released) List.drop_zero List.drop_zero
    h.length_eq h.length_answer.symm hreleased hkeyed₁
  rw [hcommitted]
  exact ⟨hkeyed₂, fun t ↦ ⟨_, hgone t, htypes t⟩⟩

/-! ## The invariant -/

/-- A session whose tables have unique keys, and whose bindings are open as long as it is. -/
structure StreamsKeyed (s : Session) : Prop where
  /-- A remote source has one binding at most. -/
  bindings : s.correlation.Keyed
  /-- Bindings can be made. -/
  open_eq : s.state ≠ .closed → s.correlation.closed = false
  /-- A payload type has one section at most, at each endpoint. -/
  types : ∀ id, (s.transport.demuxOf id).TypesKeyed

theorem Concludes.streamsKeyed (h : Concludes s base s' remote answer) (hs : s.StreamsKeyed) :
    s'.StreamsKeyed := by
  obtain ⟨hkeyed, hopen, -⟩ := h.bindings hs.bindings (hs.open_eq h.not_closed)
  refine ⟨hkeyed, fun _ ↦ hopen, fun id ↦ ?_⟩
  by_cases halive : s'.transport.isAlive id = true
  · exact (h.types halive (hs.types id)).1
  · rw [TransportBinding.demuxOf_of_not_isAlive (Bool.eq_false_iff.mpr halive)]
    exact Demux.typesKeyed_empty

theorem StreamsKeyed.generateOffer (h : s.StreamsKeyed) (hs : s.Sound) (ports : PortAllocator) :
    (s.generateOffer ports).session.StreamsKeyed := by
  cases hr : (s.generateOffer ports).result with
  | error e =>
    rw [(hs.isAtomic_generateOffer ports e hr).1]
    exact h
  | ok offer =>
    obtain ⟨run, hok, hplace⟩ := generateOffer_placed hs.exclusive hr
    obtain ⟨_, _, _, hwritten⟩ := run.written_eq
    have hopen : s.state ≠ .closed := by
      rcases generateOffer_cases hs.exclusive ports with ⟨e', hsame⟩ | ⟨hopen, -⟩
      · rw [hsame] at hr
        cases hr
      · exact hopen
    rw [hok, hwritten]
    refine ⟨h.bindings, fun _ ↦ h.open_eq hopen, fun id ↦ ?_⟩
    dsimp only
    rw [Placement.demuxOf_placeAll hplace id]
    exact h.types id

theorem StreamsKeyed.processOffer (h : s.StreamsKeyed) (hs : s.Sound) (ports : PortAllocator)
    (remote : Description) : (s.processOffer ports remote).session.StreamsKeyed := by
  cases hr : (s.processOffer ports remote).result with
  | error e =>
    rw [(hs.isAtomic_processOffer ports remote e hr).1]
    exact h
  | ok answer =>
    obtain ⟨base, hconcludes⟩ := concludes_processOffer hs hr
    exact hconcludes.streamsKeyed h

theorem StreamsKeyed.processAnswer (h : s.StreamsKeyed) (hs : s.Sound) (ports : PortAllocator)
    (answer : Description) : (s.processAnswer ports answer).session.StreamsKeyed := by
  cases hr : (s.processAnswer ports answer).result with
  | error e =>
    rw [(hs.isAtomic_processAnswer ports answer e hr).1]
    exact h
  | ok _ =>
    obtain ⟨base, hconcludes⟩ := concludes_processAnswer hs hr
    exact hconcludes.streamsKeyed h

theorem StreamsKeyed.adjusted (h : s.StreamsKeyed) (hadjusted : Adjusted s s') :
    s'.StreamsKeyed := by
  obtain ⟨_, _, _, _, _, _, transport, rfl, hclosed, htransport⟩ := hadjusted
  refine ⟨h.bindings, fun hopen ↦ h.open_eq fun hc ↦ hopen (hclosed hc), fun id ↦ ?_⟩
  rcases htransport with rfl | ⟨endpoint, c, rfl⟩
  · exact h.types id
  · dsimp only
    rw [TransportBinding.demuxOf_addRemoteCandidate]
    exact h.types id

theorem StreamsKeyed.close (h : s.StreamsKeyed) (ports : PortAllocator) :
    (s.close ports).session.StreamsKeyed := by
  rw [Session.close]
  split
  · exact h
  · exact ⟨List.nodup_nil, fun hopen ↦ absurd rfl hopen, fun _ ↦ Demux.typesKeyed_empty⟩

theorem StreamsKeyed.call (h : s.StreamsKeyed) (hs : s.Sound) (ports : PortAllocator)
    (c : SessionCall) : (s.call ports c).session.StreamsKeyed := by
  by_cases hbetween : c.isBetween = true
  · exact h.adjusted (adjusted_call s ports hbetween)
  · cases c with
    | offer => exact h.generateOffer hs ports
    | answer remote => exact h.processOffer hs ports remote
    | accept answer => exact h.processAnswer hs ports answer
    | close => exact h.close ports
    | _ => exact absurd rfl hbetween

/-- **Every reachable session** has its streams under unique keys. -/
theorem Reachable.streamsKeyed (h : s.Reachable) : s.StreamsKeyed := by
  induction h with
  | build hbuild =>
    obtain ⟨handlers, -, rfl⟩ := build_eq hbuild
    exact ⟨List.nodup_nil, fun _ ↦ rfl, fun _ ↦ Demux.typesKeyed_empty⟩
  | call ports c hs ih => exact ih.call hs.sound ports c
  | @rtcp s buffer _ ih =>
    obtain ⟨bs, hbinds⟩ :=
      CorrelationTable.exists_binds_route s.correlation CorrelationTable.noListener buffer
    exact ⟨hbinds.keyed ih.bindings, fun hopen ↦ hbinds.closed.trans (ih.open_eq hopen), ih.types⟩

end OfferAnswer.Session
